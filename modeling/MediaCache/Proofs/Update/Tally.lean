import Mathlib.Algebra.Group.Int.Defs
import Mathlib.Algebra.Group.Pi.Basic
import MediaCache.Proofs.Update.Counter
import MediaCache.Proofs.Update.Ended
import MediaCache.Proofs.Update.Evicted
import MediaCache.Proofs.Update.Invalidation

/-!
# What plans do to the counts of rows

The statistics count the rows of six families. A step adds to one of these counts, drops the statistics
or leaves both alone, and a plan that ends does what its steps do one after another.
-/

namespace MediaCache

def Family.countName? : Family → Option String
  | scene => some "scene_count"
  | movie => some "movie_count"
  | gallery => some "gallery_count"
  | performer => some "performer_count"
  | studio => some "studio_count"
  | tag => some "tag_count"
  | image | galleryChapter | sceneMarker => none

theorem Family.eq_of_countName? {f g : Family} {stat : String} (hf : f.countName? = some stat)
    (hg : g.countName? = some stat) : f = g := by
  cases f <;> cases hf <;> cases g <;> simp [countName?] at hg ⊢

namespace Cache

def count? (c : Cache) (name stat : String) : Option Int :=
  (c.root.get? name).bind fun v => (v.field? stat).bind Json.asInt64?

/-- An entry of the statistics is dropped, or it is kept and each of its counts of rows takes what is
added. A member that is no integer does not become one. -/
structure CountEffect (name : String) (added : Family → Int) (drops : Bool) (c d : Cache) : Prop where
  present : d.root.contains name = (c.root.contains name && !drops)
  counts : drops = false → ∀ (family : Family) (stat : String), family.countName? = some stat →
    d.count? name stat = (c.count? name stat).map (· + added family)

variable {name stat : String} {added more : Family → Int} {drops dropsMore : Bool} {c d e : Cache}

theorem CountEffect.of_counts (hpresent : d.root.contains name = c.root.contains name)
    (hcounts : ∀ (family : Family) (stat : String), family.countName? = some stat →
      d.count? name stat = c.count? name stat) : CountEffect name 0 false c d where
  present := by rw [hpresent, Bool.not_false, Bool.and_true]
  counts _ family stat hstat := by
    simp only [hcounts family stat hstat, Pi.zero_apply, Int.add_zero, Option.map_id']

theorem CountEffect.of_map {f : Json → Json} (h : d.root.get? name = (c.root.get? name).map f)
    (hf : ∀ (family : Family) (stat : String), family.countName? = some stat →
      ∀ v, (f v).field? stat = v.field? stat) : CountEffect name 0 false c d := by
  refine .of_counts ?_ fun family stat hstat => ?_
  · rw [SortedMap.contains, h, Option.isSome_map, SortedMap.contains]
  · rw [count?, h, count?]
    cases c.root.get? name with
    | none => rfl
    | some v => rw [Option.map_some, Option.bind_some, Option.bind_some, hf family stat hstat]

theorem CountEffect.of_entry (h : d.entry name = c.entry name) : CountEffect name 0 false c d := by
  have hroot : d.root.get? name = c.root.get? name := congrArg Prod.fst h
  exact .of_map (f := id) (by rw [hroot, Option.map_id]; rfl) fun _ _ _ _ => rfl

theorem CountEffect.of_sameRoot (h : SameRoot c d) : CountEffect name 0 false c d :=
  .of_entry (h.entry name)

theorem CountEffect.trans (h : CountEffect name added drops c d)
    (h' : CountEffect name more dropsMore d e) :
    CountEffect name (added + more) (drops || dropsMore) c e where
  present := by rw [h'.present, h.present, Bool.not_or, Bool.and_assoc]
  counts hkept family stat hstat := by
    obtain ⟨hfirst, hsecond⟩ := Bool.or_eq_false_iff.1 hkept
    rw [h'.counts hsecond family stat hstat, h.counts hfirst family stat hstat, Option.map_map]
    simp only [Function.comp_def, Int.add_assoc, Pi.add_apply]

theorem CountEffect.after (h' : CountEffect name added drops d e)
    (h : CountEffect name 0 false c d) : CountEffect name added drops c e := by
  have := h.trans h'
  rwa [zero_add, Bool.false_or] at this

theorem CountEffect.congr (h : CountEffect name added drops c d)
    (hadded : drops = false → ∀ family : Family, family.countName?.isSome = true →
      more family = added family) : CountEffect name more drops c d where
  present := h.present
  counts hkept family stat hstat := by
    rw [hadded hkept family (by rw [hstat]; rfl)]
    exact h.counts hkept family stat hstat

theorem CountEffect.count?_before (h : CountEffect name added drops c d) {family : Family}
    (hstat : family.countName? = some stat) {i : Int} (hi : d.count? name stat = some i) :
    ∃ j, c.count? name stat = some j ∧ i = j + added family := by
  cases drops with
  | false =>
    rw [h.counts rfl family stat hstat] at hi
    obtain ⟨j, hj, rfl⟩ := Option.map_eq_some_iff.1 hi
    exact ⟨j, hj, rfl⟩
  | true =>
    have hgone := h.present
    rw [Bool.not_true, Bool.and_false, SortedMap.contains, Option.isSome_eq_false_iff,
      Option.isNone_iff_eq_none] at hgone
    rw [count?, hgone] at hi
    cases hi

/-! ## Members of the statistics -/

theorem get?_addToStat (hname : baseFieldName name = Document.stats.rootField) (stat : String)
    (delta : Double) :
    (c.addToStat stat delta).2.root.get? name = (c.root.get? name).map (addedStat stat delta) := by
  have h := congrArg Prod.fst (entry_addToStat c stat delta name)
  rw [if_pos hname] at h
  exact h

theorem field?_addedStat_of_ne {s : String} (h : s ≠ stat) (delta : Double) (v : Json) :
    (addedStat stat delta v).field? s = v.field? s := by
  cases v with
  | object stats =>
    unfold addedStat
    simp only
    split
    · exact Assoc.get?_insert_of_ne h _ _
    · rfl
  | _ => rfl

theorem count?_of_get? {v : Json} (h : c.root.get? name = some v) (stat : String) :
    c.count? name stat = (v.field? stat).bind Json.asInt64? := by
  rw [count?, h, Option.bind_some]

theorem statFits_iff_count? {delta : Double} (hdelta : delta.isWhole = true) :
    c.statFits stat delta = true ↔
      ∀ name i, baseFieldName name = Document.stats.rootField → c.count? name stat = some i →
        inInt64 (i + clampInt64 delta.truncate) = true := by
  simp only [statFits_iff, sumFits_eq hdelta, Option.all_eq_true, count?, Option.bind_eq_some_iff]
  constructor
  · rintro h name i hname ⟨v, hv, w, hw, hi⟩
    exact h name v hname hv w hw i hi
  · exact fun h name v hname hv w hw i hi => h name i hname ⟨v, hv, w, hw, hi⟩

theorem countEffect_addToStat (hname : baseFieldName name = Document.stats.rootField)
    {family : Family} (hstat : family.countName? = some stat) {delta : Double}
    (hdelta : delta.isWhole = true) (hfits : c.statFits stat delta = true) :
    CountEffect name (Pi.single family (clampInt64 delta.truncate)) false c
      (c.addToStat stat delta).2 where
  present := by
    rw [SortedMap.contains, get?_addToStat hname, Option.isSome_map, SortedMap.contains,
      Bool.not_false, Bool.and_true]
  counts _ f s hs := by
    have hget := get?_addToStat (c := c) hname stat delta
    cases hv : c.root.get? name with
    | none =>
      rw [hv] at hget
      rw [count?, count?, hget, hv]
      rfl
    | some v =>
      rw [hv, Option.map_some] at hget
      rw [count?_of_get? hget, count?_of_get? hv]
      by_cases hf : f = family
      · subst hf
        obtain rfl : s = stat := Option.some.inj (hs.symm.trans hstat)
        rw [Pi.single_eq_same, count_addedStat_of_fits hdelta (statFits_iff.1 hfits name v hname hv)]
      · have hne : s ≠ stat := fun he => hf (Family.eq_of_countName? (he ▸ hs) hstat)
        simp only [field?_addedStat_of_ne hne, Pi.single_eq_of_ne hf, Int.add_zero, Option.map_id']

theorem countEffect_addToOther (hname : baseFieldName name = Document.stats.rootField)
    (hstat : ∀ family : Family, family.countName? ≠ some stat) (delta : Double) :
    CountEffect name 0 false c (c.addToStat stat delta).2 :=
  .of_map (get?_addToStat hname stat delta) fun family _ hs v =>
    field?_addedStat_of_ne (fun he => hstat family (hs.trans (congrArg some he))) delta v

theorem get?_dropStat (hname : baseFieldName name = Document.stats.rootField) (stat : String) :
    (c.dropStat stat).2.root.get? name = (c.root.get? name).map (droppedStat stat) := by
  have h := congrArg Prod.fst (entry_dropStat c stat name)
  rw [if_pos hname] at h
  exact h

theorem countEffect_dropOther (hname : baseFieldName name = Document.stats.rootField)
    (hstat : ∀ family : Family, family.countName? ≠ some stat) :
    CountEffect name 0 false c (c.dropStat stat).2 :=
  .of_map (get?_dropStat hname stat) fun family _ hs v =>
    field?_droppedStat_of_ne (fun he => hstat family (hs.trans (congrArg some he))) v

/-! ## Evictions -/

theorem countEffect_evictQueries (hname : baseFieldName name = Document.stats.rootField)
    (docs : List Document) (options : Options) :
    CountEffect name 0 (docs.any fun doc => doc.rootField == Document.stats.rootField) c
      (c.evictQueries docs options).2 := by
  cases hdrops : docs.any fun doc => doc.rootField == Document.stats.rootField with
  | false =>
    refine .of_entry (entry_evictQueries_of_not_named fun doc hdoc he => ?_)
    rw [List.any_eq_false] at hdrops
    exact hdrops doc hdoc (beq_iff_eq.2 (he.trans hname))
  | true =>
    refine ⟨?_, nofun⟩
    have hgone : (c.evictQueries docs options).2.root.get? name = none := by
      obtain ⟨doc, hdoc, hfield⟩ := List.any_eq_true.1 hdrops
      exact entry_evictQueries_of_answers options
        ⟨doc, hdoc, (beq_iff_eq.1 hfield).trans hname.symm⟩
    rw [SortedMap.contains, hgone, Bool.not_true, Bool.and_false]
    rfl

theorem sameRoot_evictTypeFields (c : Cache) (fields : TypeFields) (ignore : Option ObjectRef) :
    SameRoot c (c.evictTypeFields fields ignore).2 := by
  rw [evictTypeFields_eq]
  refine List.foldlRecOn fields.rows _ (SameRoot.refl c) fun d hd row _ => ?_
  exact hd.trans (trimmed_evictObjects d (d.objectsOfType row.1) ignore row.2).sameRoot

end Cache

/-! ## Steps -/

def Step.KeepsCounts : Step → Prop
  | appendReference _ list => list.rootField ≠ Document.stats.rootField
  | addToStat stat _ => ∀ family : Family, family.countName? ≠ some stat
  | deleteObject _ lookup => lookup ∈ Document.all ∧ lookup.singleObject.isSome = true
  | evictQueries docs => ∀ doc ∈ docs, doc.rootField ≠ Document.stats.rootField
  | evictObject _ | evictField .. | evictTypeFields .. | replaceField .. | addToField .. | countPlay _
  | patchCounter .. => True

namespace Cache

variable {name : String}

def otherNumbers : List String :=
  [totalCount, "total_play_count", "total_play_duration", "scenes_played"]

theorem countName?_ne_other {stat : String} (h : stat ∈ otherNumbers) (family : Family) :
    family.countName? ≠ some stat := by
  revert stat
  cases family <;> decide

theorem countEffect_countPlay (hname : baseFieldName name = Document.stats.rootField) (c : Cache)
    (scene : ObjectRef) (now : String) : CountEffect name 0 false c (c.countPlay scene now) := by
  have hother : ∀ stat ∈ ["total_play_count", "scenes_played"], stat ∈ otherNumbers := by decide
  refine countPlay_keeps (P := CountEffect name 0 false c) (.of_sameRoot (SameRoot.refl c))
    (fun n v _ => ?_) (fun d hd => ?_) (fun d stat hstat hd => ?_) fun d hd => ?_
  · exact .of_sameRoot (sameRoot_applyToField c scene _ _).1
  · exact (CountEffect.of_sameRoot (sameRoot_modifyField d scene _ _).1).after hd
  · exact (countEffect_addToOther hname (countName?_ne_other (hother stat hstat)) _).after hd
  · exact (countEffect_dropOther hname (countName?_ne_other (by decide))).after hd

theorem countEffect_spreadCounter (hname : baseFieldName name = Document.stats.rootField) (c : Cache)
    (target : CounterTarget) (obj : ObjectRef) (op : CounterOp) :
    CountEffect name 0 false c (c.spreadCounter target obj op).2 := by
  unfold spreadCounter
  split
  · exact (countEffect_addToOther hname (countName?_ne_other (by decide)) _).after
      (.of_sameRoot (sameRoot_foldl_patchPerformer _ _ { cache := c }))
  · exact (countEffect_dropOther hname (countName?_ne_other (by decide))).after
      (.of_sameRoot (sameRoot_evictTypeFields c _ none))

theorem countEffect_patchCounter (hname : baseFieldName name = Document.stats.rootField) (c : Cache)
    (target : CounterTarget) (id : String) (op : CounterOp) (value : Int) (options : Options) :
    CountEffect name 0 false c (c.patchCounter target id op value options).2 := by
  have hwritten := (CountEffect.of_sameRoot (sameRoot_writeField_int _ ⟨target.typename, id⟩
    counterField value)).after (countEffect_spreadCounter hname c target ⟨target.typename, id⟩ op)
  refine CountEffect.after (.of_entry (entry_evictQueries_of_not_named fun doc hdoc => ?_)) hwritten
  rw [hname]
  exact rootField_counterQueries_ne_stats target doc hdoc

theorem countEffect_keeping (hname : baseFieldName name = Document.stats.rootField) {step : Step}
    (h : step.KeepsCounts) (options : Options) (now : String) (c : Cache) :
    CountEffect name 0 false c (step.run options now c) := by
  cases step with
  | appendReference obj list =>
    refine .of_entry ?_
    unfold Step.run appendReference
    rw [entry_modifyRoot, if_neg fun he => h (he.symm.trans hname)]
  | addToStat stat delta => exact countEffect_addToOther hname h delta
  | deleteObject obj lookup =>
    refine .of_entry ((entry_deleteObject c obj lookup name).trans (if_neg ?_))
    rintro rfl
    exact rootField_ne_lookupName h.1 h.2 (by decide) rfl obj hname
  | evictObject obj => exact .of_sameRoot (sameRoot_evictObject c obj)
  | evictField obj field => exact .of_sameRoot (sameRoot_modifyField c obj field _).1
  | evictTypeFields fields ignore => exact .of_sameRoot (sameRoot_evictTypeFields c fields ignore)
  | evictQueries docs =>
    exact .of_entry (entry_evictQueries_of_not_named fun doc hdoc => hname ▸ h doc hdoc)
  | replaceField obj field v => exact .of_sameRoot (sameRoot_modifyField c obj field _).1
  | addToField obj field delta => exact .of_sameRoot (sameRoot_modifyField c obj field _).1
  | countPlay scene => exact countEffect_countPlay hname c scene now
  | patchCounter target id op value =>
    exact countEffect_patchCounter hname c target id op value options

end Cache

/-! ## Plans -/

namespace Plan

/-- When the plan ends it has added to the counts of rows what is given here, and it has dropped the
statistics or not. -/
def Tallies (plan : Plan) (added : Family → Int) (drops : Bool) : Prop :=
  ∀ (options : Options) (now : String) (c d : Cache) (name : String),
    baseFieldName name = Document.stats.rootField → plan.run? options now c = some d →
      Cache.CountEffect name added drops c d

variable {plan rest : Plan} {added more : Family → Int} {drops dropsMore : Bool}

theorem Tallies.append (h : plan.Tallies added drops) (h' : rest.Tallies more dropsMore) :
    Tallies (plan ++ rest) (added + more) (drops || dropsMore) := by
  intro options now c d name hname hrun
  rw [run?_append] at hrun
  obtain ⟨mid, hmid, hrun⟩ := Option.bind_eq_some_iff.1 hrun
  exact (h options now c mid name hname hmid).trans (h' options now mid d name hname hrun)

theorem Tallies.congr (h : plan.Tallies added drops)
    (hadded : drops = false → ∀ family : Family, family.countName?.isSome = true →
      more family = added family) : plan.Tallies more drops :=
  fun options now c d name hname hrun => (h options now c d name hname hrun).congr hadded

theorem tallies_keeping (h : ∀ step ∈ plan, step.KeepsCounts) : plan.Tallies 0 false := by
  intro options now c d name hname hrun
  rw [← run_of_run? hrun]
  refine List.foldlRecOn plan _ (.of_sameRoot (Cache.SameRoot.refl c)) fun d hd step hstep => ?_
  exact (Cache.countEffect_keeping hname (h step hstep) options now d).after hd

theorem Tallies.keeping_append (h : ∀ step ∈ plan, step.KeepsCounts) (h' : rest.Tallies added drops) :
    Tallies (plan ++ rest) added drops := by
  have := (tallies_keeping h).append h'
  rwa [zero_add, Bool.false_or] at this

theorem Tallies.keeping_cons {step : Step} (h : step.KeepsCounts) (h' : rest.Tallies added drops) :
    Tallies (step :: rest) added drops :=
  Tallies.keeping_append (List.forall_mem_singleton.2 h) h'

theorem Tallies.append_keeping (h : plan.Tallies added drops) (h' : ∀ step ∈ rest, step.KeepsCounts) :
    Tallies (plan ++ rest) added drops := by
  have := h.append (tallies_keeping h')
  rwa [add_zero, Bool.or_false] at this

theorem tallies_evictQueries (docs : List Document) :
    Tallies [.evictQueries docs] 0
      (docs.any fun doc => doc.rootField == Document.stats.rootField) := by
  intro options now c d name hname hrun
  rw [← run_of_run? hrun]
  exact Cache.countEffect_evictQueries hname docs options

theorem tallies_addToStat {family : Family} {stat : String} (hstat : family.countName? = some stat)
    {delta : Double} (hdelta : delta.isWhole = true) :
    Tallies [.addToStat stat delta] (Pi.single family (clampInt64 delta.truncate)) false := by
  intro options now c d name hname hrun
  rw [run?_cons] at hrun
  obtain ⟨next, hstep, hend⟩ := Option.bind_eq_some_iff.1 hrun
  cases hend
  obtain ⟨hfits, rfl⟩ := Step.run?_eq_some_iff.1 hstep
  exact Cache.countEffect_addToStat hname hstat hdelta hfits

end Plan

end MediaCache
