import Mathlib.Algebra.BigOperators.Group.List.Basic
import MediaCache.Proofs.Update.Destroyed
import MediaCache.Proofs.Update.Order
import MediaCache.Proofs.Update.Tally

/-!
# Cached counts follow the mutations

Over any run of mutations that ends a cached count of rows gains one for each row that was created and
loses one for each row that was destroyed. Where the server must be asked, the statistics are dropped as a
whole.
-/

namespace MediaCache

/-- Files and sizes go with these rows, and the client does not know how many. -/
def MutationKind.dropsStatistics : MutationKind → Bool
  | sceneDestroy | scenesDestroy | imagesDestroy | galleryDestroy | sceneMerge | deleteFiles => true
  | _ => false

namespace Mutation

/-- The number of rows of a family that the mutation destroys or merges away. -/
def lost (m : Mutation) (family : Family) : Nat :=
  m.destroyed.countP fun obj => obj.typename = family.typename

/-- What the mutation adds to a count. The number of lost rows passes through a double. -/
def countChange (m : Mutation) (family : Family) : Int :=
  (if m.kind.created? = some family then 1 else 0) +
    clampInt64 (Double.ofInt (m.lost family)).neg.truncate

end Mutation

/-! ## What plans drop and count -/

namespace Impact

theorem createdStat_eq (family : Family) : (of family).createdStat = family.countName? := by
  cases family <;> rfl

def dropsStatistics (docs : List Document) : Bool :=
  docs.any fun doc => doc.rootField == Document.stats.rootField

theorem keepsCounts_evictQueries {docs : List Document} (h : dropsStatistics docs = false) :
    (Step.evictQueries docs).KeepsCounts := by
  intro doc hdoc he
  exact List.any_eq_false.1 h doc hdoc (beq_iff_eq.2 he)

@[simp]
theorem dropsStatistics_queries (family : Family) : dropsStatistics (of family).queries = false := by
  cases family <;> decide

@[simp]
theorem dropsStatistics_queriesOnCreate (family : Family) :
    dropsStatistics (of family).queriesOnCreate = false := by
  cases family <;> decide

theorem destroyedStat_eq (family : Family) :
    (of family).destroyedStat =
      if dropsStatistics (of family).queriesOnDestroy then none else family.countName? := by
  cases family <;> decide

theorem rootField_listQuery_ne (family : Family) :
    ∀ doc ∈ (of family).listQuery, doc.rootField ≠ Document.stats.rootField := by
  cases family <;> decide

end Impact

/-! ## Plans by shape -/

namespace Plan

theorem keepsCounts_appendIf (family : Family) (obj : Option ObjectRef) :
    ∀ step ∈ appendIf (Impact.of family).listQuery obj, step.KeepsCounts := by
  have hlist := Impact.rootField_listQuery_ne family
  unfold appendIf
  split
  · rename_i list obj hquery
    intro step hstep
    obtain rfl := List.mem_singleton.1 hstep
    exact hlist list hquery
  · exact List.forall_mem_nil _

theorem keepsCounts_deleteObjects (typename : Typename) (ids : List String) {lookup : Option Document}
    (h : ∀ doc ∈ lookup, doc ∈ Document.all ∧ doc.singleObject.isSome = true) :
    ∀ step ∈ deleteObjects typename ids lookup, step.KeepsCounts := by
  intro step hstep
  obtain ⟨id, -, rfl⟩ := List.mem_map.1 hstep
  cases lookup with
  | none => trivial
  | some doc => exact h doc rfl

theorem keepsCounts_dropping {docs : List Document} (h : Impact.dropsStatistics docs = false) :
    ∀ step ∈ ([.evictQueries docs] : Plan), step.KeepsCounts :=
  List.forall_mem_singleton.2 (Impact.keepsCounts_evictQueries h)

theorem keepsCounts_evictions (fields : TypeFields) (ignore : Option ObjectRef) {docs : List Document}
    (h : Impact.dropsStatistics docs = false) :
    ∀ step ∈ ([.evictTypeFields fields ignore, .evictQueries docs] : Plan), step.KeepsCounts :=
  List.forall_mem_cons.2 ⟨trivial, keepsCounts_dropping h⟩

theorem keepsCounts_update (family : Family) (ignore : Option ObjectRef) :
    ∀ step ∈ update family ignore, step.KeepsCounts :=
  keepsCounts_evictions _ ignore (Impact.dropsStatistics_queries family)

theorem tallies_addToStatIf {family : Family} {stat : Option String} (h : stat = family.countName?)
    {delta : Double} (hdelta : delta.isWhole = true) :
    Tallies (addToStatIf stat delta) (Pi.single family (clampInt64 delta.truncate)) false := by
  subst h
  cases hname : family.countName? with
  | some stat => exact tallies_addToStat hname hdelta
  | none =>
    -- The family has no count.
    refine (tallies_keeping (List.forall_mem_nil _)).congr fun _ f hf => ?_
    have hne : f ≠ family := by
      rintro rfl
      rw [hname] at hf
      cases hf
    rw [Pi.single_eq_of_ne hne, Pi.zero_apply]

theorem tallies_created (family : Family) :
    Tallies (addToStatIf (Impact.of family).createdStat (Double.ofInt 1)) (Pi.single family 1)
      false := by
  have hcounted := tallies_addToStatIf (Impact.createdStat_eq family) (Double.isWhole_ofInt 1)
  rwa [clampInt64_ofInt (by decide)] at hcounted

theorem tallies_create (family : Family) (result : Json) (keepOwn : Bool) :
    (create family result keepOwn).Tallies (Pi.single family 1) false :=
  ((tallies_created family).keeping_append (keepsCounts_appendIf family _)).append_keeping
    (keepsCounts_evictions _ _ (Impact.dropsStatistics_queriesOnCreate family))

theorem tallies_createScene (result : Json) (fileIds : List String) :
    (createScene result fileIds).Tallies (Pi.single .scene 1) false := by
  unfold createScene
  refine (tallies_created .scene).append_keeping ?_
  split <;> exact keepsCounts_evictions _ _ (Impact.dropsStatistics_queriesOnCreate .scene)

theorem tallies_createStudio (result : Json) (parentId : Option String) :
    (createStudio result parentId).Tallies (Pi.single .studio 1) false := by
  refine Tallies.append_keeping (Tallies.append_keeping
    ((tallies_created .studio).keeping_append (keepsCounts_appendIf .studio _)) ?_) ?_
  · cases parentId with
    | none => exact List.forall_mem_nil _
    | some id => exact List.forall_mem_singleton.2 trivial
  · exact keepsCounts_dropping (Impact.dropsStatistics_queriesOnCreate .studio)

theorem tallies_destroy (family : Family) (ids : List String) :
    (destroy family ids).Tallies
      (Pi.single family (clampInt64 (Double.ofInt ids.length).neg.truncate))
      (Impact.dropsStatistics (Impact.of family).queriesOnDestroy) := by
  have hdeleted := keepsCounts_deleteObjects family.typename ids (Impact.isLookup_findQuery family)
  have hwhole : (Double.ofInt ids.length).neg.isWhole = true :=
    (Double.isWhole_neg _).trans (Double.isWhole_ofInt _)
  have hstat := Impact.destroyedStat_eq family
  unfold destroy
  dsimp only
  cases hdrops : Impact.dropsStatistics (Impact.of family).queriesOnDestroy with
  | false =>
    rw [hdrops, if_neg (by decide)] at hstat
    exact ((tallies_addToStatIf hstat hwhole).keeping_append hdeleted).append_keeping
      (keepsCounts_evictions _ _ hdrops)
  | true =>
    rw [hdrops, if_pos rfl] at hstat
    rw [hstat, addToStatIf, List.append_nil, ← hdrops]
    have hfields : (Step.evictTypeFields (Impact.of family).fieldsOnDestroy none).KeepsCounts := trivial
    refine (Tallies.keeping_append hdeleted (Tallies.keeping_cons hfields
      (tallies_evictQueries _))).congr fun hkept => ?_
    exact absurd (hdrops.symm.trans hkept) (by decide)

theorem tallies_mergeScenes (source : List String) : (mergeScenes source).Tallies 0 true :=
  Tallies.keeping_append (keepsCounts_deleteObjects .scene source (by decide))
    (Tallies.keeping_cons trivial (tallies_evictQueries _))

theorem tallies_mergeTags (source : List String) (destination : String) :
    (mergeTags source destination).Tallies
      (Pi.single .tag (clampInt64 (Double.ofInt source.length).neg.truncate)) false := by
  have hwhole : (Double.ofInt source.length).neg.isWhole = true :=
    (Double.isWhole_neg _).trans (Double.isWhole_ofInt _)
  have hstat : some "tag_count" = Family.tag.countName? := rfl
  exact ((tallies_addToStatIf hstat hwhole).keeping_append
    (keepsCounts_deleteObjects .tag source (Impact.isLookup_findQuery .tag))).append_keeping
      (keepsCounts_evictions _ _ (Impact.dropsStatistics_queries .tag))

theorem tallies_deleteFiles (ids : List String) : (deleteFiles ids).Tallies 0 true := by
  refine Tallies.keeping_append (fun step hstep => ?_) (tallies_evictQueries _)
  obtain ⟨id, -, hstep⟩ := List.mem_flatMap.1 hstep
  obtain ⟨t, -, rfl⟩ := List.mem_map.1 hstep
  trivial

theorem keepsCounts_counter (target : CounterTarget) (id : String) (op : CounterOp) (result : Json) :
    ∀ step ∈ counter target id op result, step.KeepsCounts := by
  unfold counter
  split
  · exact List.forall_mem_singleton.2 trivial
  · exact List.forall_mem_nil _

theorem keepsCounts_markerChanged (sceneId : String) : ∀ step ∈ markerChanged sceneId, step.KeepsCounts :=
  List.forall_mem_cons.2 ⟨trivial, keepsCounts_update .sceneMarker none⟩

theorem keepsCounts_destroyFilter (id : String) : ∀ step ∈ destroyFilter id, step.KeepsCounts :=
  List.forall_mem_append.2
    ⟨keepsCounts_deleteObjects .savedFilter [id] (by decide), keepsCounts_dropping (by decide)⟩

theorem keepsCounts_saveActivity (id : String) (resumeTime playDuration : Option Double) :
    ∀ step ∈ saveActivity id resumeTime playDuration, step.KeepsCounts := by
  unfold saveActivity
  refine List.forall_mem_append.2 ⟨List.forall_mem_append.2 ⟨?_, ?_⟩,
    keepsCounts_dropping (by decide)⟩
  · cases resumeTime with
    | none => exact List.forall_mem_nil _
    | some time => exact List.forall_mem_singleton.2 trivial
  · cases playDuration with
    | none => exact List.forall_mem_nil _
    | some duration =>
      refine List.forall_mem_cons.2 ⟨trivial, ?_⟩
      split
      · exact List.forall_mem_singleton.2 (Cache.countName?_ne_other (by decide))
      · exact List.forall_mem_nil _

theorem keepsCounts_galleryImages (galleryId : String) (imageIds : List String) :
    ∀ step ∈ galleryImages galleryId imageIds, step.KeepsCounts := by
  refine List.forall_mem_cons.2 ⟨trivial, List.forall_mem_append.2 ⟨?_,
    keepsCounts_dropping (by decide)⟩⟩
  intro step hstep
  obtain ⟨id, -, rfl⟩ := List.mem_map.1 hstep
  trivial

end Plan

/-! ## Mutations -/

namespace Mutation

variable {m : Mutation} {family : Family}

theorem countChange_eq (h : m.lost family ≤ 2 ^ 53) :
    m.countChange family = (if m.kind.created? = some family then 1 else 0) - m.lost family := by
  rw [countChange, clampInt64_neg_ofInt (by omega), Int.sub_eq_add_neg]

theorem countChange_of_not_lost (h : m.lost = 0) (family : Family) :
    m.countChange family = if m.kind.created? = some family then 1 else 0 := by
  have hfamily : m.lost family = 0 := congrFun h family
  rw [countChange_eq (by omega), hfamily, Int.natCast_zero, Int.sub_zero]

theorem countChange_eq_zero (hcreated : m.kind.created? = none) (hlost : m.lost = 0) :
    m.countChange = 0 := by
  funext f
  rw [countChange_of_not_lost hlost, hcreated, if_neg (by simp), Pi.zero_apply]

theorem countChange_of_created (hcreated : m.kind.created? = some family) (hlost : m.lost = 0) :
    m.countChange = Pi.single family 1 := by
  funext f
  rw [countChange_of_not_lost hlost, hcreated, Pi.single_apply]
  simp only [Option.some.injEq, eq_comm]

theorem lost_of_destroyed {ids : List String} (h : m.destroyed = ids.map (⟨family.typename, ·⟩)) :
    m.lost = Pi.single family ids.length := by
  funext f
  have htypes : ∀ f g : Family, g.typename = f.typename ↔ f = g := by
    intro f g
    cases f <;> cases g <;> decide
  rw [lost, h, List.countP_map, Pi.single_apply]
  by_cases hf : f = family
  · subst hf
    rw [if_pos rfl]
    exact List.countP_eq_length.2 (by simp)
  · rw [if_neg hf]
    exact List.countP_eq_zero.2 (by simp [htypes, hf])

theorem countChange_of_destroyed {ids : List String} (hcreated : m.kind.created? = none)
    (hdestroyed : m.destroyed = ids.map (⟨family.typename, ·⟩)) :
    m.countChange = Pi.single family (clampInt64 (Double.ofInt ids.length).neg.truncate) := by
  funext f
  rw [countChange, hcreated, if_neg (by simp), Int.zero_add, lost_of_destroyed hdestroyed]
  by_cases hf : f = family
  · subst hf
    rw [Pi.single_eq_same, Pi.single_eq_same]
  · rw [Pi.single_eq_of_ne hf, Pi.single_eq_of_ne hf]
    exact clampInt64_neg_ofInt (by decide)

theorem tallies_counted {plan : Plan} {ids : List String}
    (h : plan.Tallies (Pi.single family (clampInt64 (Double.ofInt ids.length).neg.truncate)) false)
    (hcreated : m.kind.created? = none) (hdestroyed : m.destroyed = ids.map (⟨family.typename, ·⟩)) :
    plan.Tallies m.countChange false := by
  rwa [countChange_of_destroyed hcreated hdestroyed]

theorem tallies_of_drops {plan : Plan} {added : Family → Int} (h : plan.Tallies added true) :
    plan.Tallies m.countChange true :=
  h.congr nofun

theorem plan_tallies (m : Mutation) (result : Json) :
    (m.plan result).Tallies m.countChange m.kind.dropsStatistics := by
  cases m
  -- Creates count their row.
  case sceneCreate fileIds =>
    rw [countChange_of_created rfl rfl]
    exact Plan.tallies_createScene result fileIds
  case studioCreate parentId =>
    rw [countChange_of_created rfl rfl]
    exact Plan.tallies_createStudio result parentId
  case movieCreate | galleryCreate | galleryChapterCreate | performerCreate | tagCreate =>
    rw [countChange_of_created rfl rfl]
    exact Plan.tallies_create _ result _
  -- Destroys and merges of rows that are counted one by one.
  case movieDestroy id | performerDestroy id | studioDestroy id | tagDestroy id =>
    exact tallies_counted (Plan.tallies_destroy _ [id]) rfl rfl
  case moviesDestroy ids | performersDestroy ids | studiosDestroy ids | tagsDestroy ids =>
    exact tallies_counted (Plan.tallies_destroy _ ids) rfl rfl
  case tagsMerge source destination =>
    exact tallies_counted (Plan.tallies_mergeTags source destination) rfl rfl
  -- These drop the statistics, whatever they count.
  case sceneDestroy id => exact tallies_of_drops (Plan.tallies_destroy .scene [id])
  case scenesDestroy ids => exact tallies_of_drops (Plan.tallies_destroy .scene ids)
  case imagesDestroy ids => exact tallies_of_drops (Plan.tallies_destroy .image ids)
  case galleryDestroy ids => exact tallies_of_drops (Plan.tallies_destroy .gallery ids)
  case sceneMerge destination source => exact tallies_of_drops (Plan.tallies_mergeScenes source)
  case deleteFiles ids => exact tallies_of_drops (Plan.tallies_deleteFiles ids)
  case sceneMarkerCreate sceneId =>
    have hcreated : (Mutation.sceneMarkerCreate sceneId).kind.created? = some .sceneMarker := rfl
    rw [countChange_of_created hcreated rfl]
    refine (Plan.tallies_keeping (Plan.keepsCounts_markerChanged sceneId)).congr fun _ f hf => ?_
    -- Markers are not counted.
    have hne : f ≠ .sceneMarker := by
      rintro rfl
      cases hf
    rw [Pi.single_eq_of_ne hne, Pi.zero_apply]
  case destroySavedFilter id =>
    have hlost : (destroySavedFilter id).lost = 0 := by
      funext f
      cases f <;> rfl
    rw [countChange_eq_zero rfl hlost]
    exact Plan.tallies_keeping (Plan.keepsCounts_destroyFilter id)
  -- The others touch no count.
  all_goals
    rw [countChange_eq_zero rfl rfl]
    refine Plan.tallies_keeping ?_
  case sceneSaveActivity id resumeTime playDuration =>
    exact Plan.keepsCounts_saveActivity id resumeTime playDuration
  case addGalleryImages galleryId imageIds | removeGalleryImages galleryId imageIds =>
    exact Plan.keepsCounts_galleryImages galleryId imageIds
  case sceneIncrementO | sceneDecrementO | sceneResetO | imageIncrementO | imageDecrementO |
      imageResetO =>
    exact Plan.keepsCounts_counter _ _ _ result
  case sceneMarkerUpdate id sceneId => exact Plan.keepsCounts_markerChanged sceneId
  case sceneMarkerDestroy | galleryChapterDestroy =>
    exact List.forall_mem_cons.2 ⟨trivial, Plan.keepsCounts_update _ none⟩
  case sceneUpdate | bulkSceneUpdate | scenesUpdate | imageUpdate | bulkImageUpdate | movieUpdate |
      bulkMovieUpdate | galleryUpdate | bulkGalleryUpdate | galleryChapterUpdate | performerUpdate |
      bulkPerformerUpdate | studioUpdate | tagUpdate =>
    exact Plan.keepsCounts_update _ _
  case sceneAssignFile sceneId fileId =>
    exact List.forall_mem_cons.2 ⟨trivial, Plan.keepsCounts_evictions _ none (by decide)⟩
  case sceneIncrementPlayCount id =>
    exact List.forall_mem_cons.2 ⟨trivial, Plan.keepsCounts_dropping (by decide)⟩
  all_goals exact Plan.keepsCounts_dropping (by decide)

theorem lost_eq_zero_of_kept (h : m.kind.dropsStatistics = false)
    (hfamily : family = .scene ∨ family = .gallery) : m.lost family = 0 := by
  rcases hfamily with rfl | rfl <;> cases m <;>
    simp [kind, MutationKind.dropsStatistics, lost, destroyed, Family.typename] at h ⊢

def createdIn (mutations : List Mutation) (family : Family) : Nat :=
  mutations.countP fun m => m.kind.created? = some family

def lostIn (mutations : List Mutation) (family : Family) : Nat :=
  (mutations.map (·.lost family)).sum

@[simp]
theorem createdIn_cons (m : Mutation) (rest : List Mutation) (family : Family) :
    createdIn (m :: rest) family =
      createdIn rest family + if m.kind.created? = some family then 1 else 0 := by
  rw [createdIn, List.countP_cons, createdIn]
  simp only [decide_eq_true_eq]

@[simp]
theorem lostIn_cons (m : Mutation) (rest : List Mutation) (family : Family) :
    lostIn (m :: rest) family = m.lost family + lostIn rest family := by
  rw [lostIn, List.map_cons, List.sum_cons, lostIn]

theorem sum_countChange {mutations : List Mutation}
    (hsmall : ∀ m ∈ mutations, m.lost family ≤ 2 ^ 53) :
    (mutations.map countChange).sum family =
      (createdIn mutations family : Int) - lostIn mutations family := by
  induction mutations with
  | nil => rfl
  | cons m rest ih =>
    obtain ⟨hm, hrest⟩ := List.forall_mem_cons.1 hsmall
    rw [List.map_cons, List.sum_cons, Pi.add_apply, ih hrest, countChange_eq hm, createdIn_cons,
      lostIn_cons]
    split <;> omega

theorem lostIn_eq_zero {mutations : List Mutation} (h : ∀ m ∈ mutations, m.lost family = 0) :
    lostIn mutations family = 0 := by
  refine List.sum_eq_zero fun n hn => ?_
  obtain ⟨m, hm, rfl⟩ := List.mem_map.1 hn
  exact h m hm

end Mutation

/-! ## Runs -/

/-- A mutation that was sent, and what came of it. -/
structure UpdateCall where
  mutation : Mutation
  result : Option Json
  options : Options := {}
  now : String := ""

namespace Cache

def updateBy (c : Cache) (call : UpdateCall) : Outcome × Cache :=
  c.applyMutation call.options call.now call.mutation call.result

def updateAll (c : Cache) (calls : List UpdateCall) : Cache :=
  calls.foldl (fun c call => (c.updateBy call).2) c

def updateBy? (c : Cache) (call : UpdateCall) : Option (Outcome × Cache) :=
  c.applyMutation? call.options call.now call.mutation call.result

/-- The cache after all calls. There is none when a sum leaves 64 bits. -/
def updateAll? (c : Cache) (calls : List UpdateCall) : Option Cache :=
  calls.foldlM (fun c call => (c.updateBy? call).map (·.2)) c

def applied (c : Cache) : List UpdateCall → List Mutation
  | [] => []
  | call :: rest =>
    match c.updateBy call with
    | (.applied, d) => call.mutation :: d.applied rest
    | (.skipped, d) => d.applied rest

variable {c : Cache} {name : String}

theorem updateBy_cases (c : Cache) (call : UpdateCall) :
    c.updateBy call = (.skipped, c) ∨ ∃ result, call.result = some result ∧
      c.updateBy call = (.applied, Plan.run call.options call.now
        (c.writeResult call.mutation.kind.subject result) (call.mutation.plan result)) := by
  unfold updateBy applyMutation
  split
  · exact .inl rfl
  · rename_i result hresult
    exact .inr ⟨result, (Option.filter_eq_some_iff.1 hresult).1, rfl⟩

theorem sameRoot_writeResult (c : Cache) (subject : Subject) (result : Json) :
    SameRoot c (c.writeResult subject result) :=
  writeResult_keeps (P := SameRoot c) (fun d _ _ hd => hd.trans (sameRoot_writeObject d _))
    (SameRoot.refl c)

@[simp]
theorem updateAll?_cons (c : Cache) (call : UpdateCall) (rest : List UpdateCall) :
    c.updateAll? (call :: rest) = (c.updateBy? call).bind fun next => next.2.updateAll? rest := by
  rw [updateAll?, List.foldlM_cons, Option.bind_eq_bind, Option.bind_map]
  rfl

theorem updateBy_of_updateBy? {call : UpdateCall} {next : Outcome × Cache}
    (h : c.updateBy? call = some next) : c.updateBy call = next :=
  applyMutation_of_applyMutation? h

theorem updateAll_of_updateAll? {calls : List UpdateCall} {d : Cache} (h : c.updateAll? calls = some d) :
    c.updateAll calls = d := by
  induction calls generalizing c with
  | nil => exact Option.some.inj h
  | cons call rest ih =>
    rw [updateAll?_cons] at h
    obtain ⟨next, hnext, hrest⟩ := Option.bind_eq_some_iff.1 h
    rw [← ih hrest, ← updateBy_of_updateBy? hnext]
    rfl

theorem countEffect_updateAll? (hname : baseFieldName name = Document.stats.rootField)
    {calls : List UpdateCall} {d : Cache} (h : c.updateAll? calls = some d) :
    CountEffect name ((c.applied calls).map Mutation.countChange).sum
      ((c.applied calls).any (·.kind.dropsStatistics)) c d := by
  induction calls generalizing c with
  | nil =>
    obtain rfl : c = d := Option.some.inj h
    exact .of_sameRoot (SameRoot.refl c)
  | cons call rest ih =>
    rw [updateAll?_cons] at h
    obtain ⟨next, hnext, hrest⟩ := Option.bind_eq_some_iff.1 h
    rw [applied, updateBy_of_updateBy? hnext]
    rcases applyMutation?_cases hnext with ⟨-, rfl⟩ | ⟨result, e, -, rfl, hplan⟩
    · exact ih hrest
    · have hwritten := sameRoot_writeResult c call.mutation.kind.subject result
      exact ((call.mutation.plan_tallies result call.options call.now _ e name hname hplan).after
        (.of_sameRoot hwritten)).trans (ih hrest)

/-- Over any run of mutations that ends the statistics are dropped exactly when one that drops them was
applied. If they are kept, each count that is an integer changes by the rows of its family that were created
and lost, as long as no list of lost rows is longer than 2^53. -/
theorem counts_tracked {calls : List UpdateCall} {d : Cache} (hrun : c.updateAll? calls = some d)
    (hname : baseFieldName name = Document.stats.rootField)
    (hpresent : c.root.contains name = true) :
    (d.root.contains name = false ↔ ∃ m ∈ c.applied calls, m.kind.dropsStatistics = true) ∧
    (d.root.contains name = true →
      (∀ family ∈ [Family.movie, .performer, .studio, .tag], ∀ stat ∈ family.countName?,
        (∀ m ∈ c.applied calls, m.lost family ≤ 2 ^ 53) → ∀ i, c.count? name stat = some i →
          d.count? name stat =
            some (i + Mutation.createdIn (c.applied calls) family -
              Mutation.lostIn (c.applied calls) family)) ∧
      ∀ family ∈ [Family.scene, .gallery], ∀ stat ∈ family.countName?,
        ∀ i, c.count? name stat = some i →
          d.count? name stat = some (i + Mutation.createdIn (c.applied calls) family)) := by
  have heffect := countEffect_updateAll? hname hrun
  have hdropped := heffect.present
  rw [hpresent, Bool.true_and] at hdropped
  refine ⟨?_, fun hkept => ?_⟩
  · rw [hdropped, Bool.not_eq_false', List.any_eq_true]
  have hnone : (c.applied calls).any (·.kind.dropsStatistics) = false := by
    rwa [hdropped, Bool.not_eq_true'] at hkept
  have hcount {family : Family} {stat : String} (hstat : family.countName? = some stat)
      (hsmall : ∀ m ∈ c.applied calls, m.lost family ≤ 2 ^ 53) {i : Int}
      (hi : c.count? name stat = some i) :
      d.count? name stat =
        some (i + Mutation.createdIn (c.applied calls) family -
          Mutation.lostIn (c.applied calls) family) := by
    rw [heffect.counts hnone family stat hstat, hi, Option.map_some, Mutation.sum_countChange hsmall,
      Int.add_sub_assoc]
  refine ⟨fun family _ stat hstat hsmall i hi => hcount hstat hsmall hi,
    fun family hfamily stat hstat i hi => ?_⟩
  -- Rows of these families are never taken off: the mutations that lose some drop the statistics.
  have hlost : ∀ m ∈ c.applied calls, m.lost family = 0 := fun m hm =>
    Mutation.lost_eq_zero_of_kept (Bool.eq_false_iff.2 (List.any_eq_false.1 hnone m hm))
      (by simpa using hfamily)
  have htotal := hcount hstat (fun m hm => by rw [hlost m hm]; omega) hi
  rwa [Mutation.lostIn_eq_zero hlost, Int.natCast_zero, Int.sub_zero] at htotal

def withCounts (scenes tags : Int) : Cache :=
  (new .standard).run
    [.writeRoot "stats" none (.object [("scene_count", .int scenes), ("tag_count", .int tags)])]

def createdTag : UpdateCall :=
  { mutation := .tagCreate, result := some (.object [("__typename", .string "Tag"), ("id", .string "8")]) }

/-- One of two new tags came back from the server, two others were merged, and a scene is new. -/
def tagsAndScene : List UpdateCall := [
  createdTag,
  { mutation := .tagCreate, result := some .null },
  { mutation := .tagsMerge ["1", "2"] "3", result := some (.object [("id", .string "3")]) },
  { mutation := .sceneCreate [], result := some (.object [("id", .string "4")]) }]

theorem tagsAndScene_counted :
    baseFieldName "stats" = Document.stats.rootField ∧
      (withCounts 7 5).root.contains "stats" = true ∧
      ∃ d, (withCounts 7 5).updateAll? tagsAndScene = some d ∧ d.root.contains "stats" = true ∧
        d.count? "stats" "tag_count" = some (5 + 1 - 2) ∧
        d.count? "stats" "scene_count" = some (7 + 1) := by
  have hname : baseFieldName "stats" = Document.stats.rootField := by decide +kernel
  have hpresent : (withCounts 7 5).root.contains "stats" = true := by decide +kernel
  have hends : (((withCounts 7 5).updateAll? tagsAndScene).any (·.root.contains "stats")) = true := by
    decide +kernel
  obtain ⟨d, hd, hkept⟩ := (Option.any_eq_true _ _).1 hends
  obtain ⟨hcounts, hscenes⟩ := (counts_tracked hd hname hpresent).2 hkept
  exact ⟨hname, hpresent, d, hd, hkept,
    hcounts .tag (by decide) "tag_count" rfl (by decide +kernel) 5 (by decide +kernel),
    hscenes .scene (by decide) "scene_count" rfl 7 (by decide +kernel)⟩

/-- 2^53 + 1 is no double, so one of so many tags is not subtracted. -/
theorem count?_of_many_lost {ids : List String} (h : ids.length = 2 ^ 53 + 1) :
    ∃ d, (withCounts 0 (2 ^ 53 + 1)).updateAll?
        [{ mutation := .tagsDestroy ids, result := some (.bool true) }] = some d ∧
      d.count? "stats" "tag_count" = some 1 := by
  have hindexed : (withCounts 0 (2 ^ 53 + 1)).Indexed := Reachable.indexed ⟨_, _, rfl⟩
  have hadditions : Plan.additions (.destroy .tag ids) =
      [("tag_count", (Double.ofInt ids.length).neg)] := Plan.additions_destroy .tag ids
  have hplan := run?_of_invalidates (Plan.invalidates_destroy .tag ids) {} "" hindexed
    (by rw [hadditions]; exact Nat.le_refl 1)
    (by rw [hadditions, h]; exact List.forall_mem_singleton.2 (by decide +kernel))
  have hrun : (withCounts 0 (2 ^ 53 + 1)).updateAll?
      [{ mutation := .tagsDestroy ids, result := some (.bool true) }] =
        some (Plan.run {} "" (withCounts 0 (2 ^ 53 + 1)) (.destroy .tag ids)) := by
    have hcall : (withCounts 0 (2 ^ 53 + 1)).updateBy?
        { mutation := .tagsDestroy ids, result := some (.bool true) } =
          some (.applied, Plan.run {} "" (withCounts 0 (2 ^ 53 + 1)) (.destroy .tag ids)) :=
      congrArg (Option.map (Outcome.applied, ·)) hplan
    rw [updateAll?_cons, hcall]
    rfl
  have hname : baseFieldName "stats" = Document.stats.rootField := by decide +kernel
  have hcount := (countEffect_updateAll? hname hrun).counts rfl .tag "tag_count" rfl
  have hlost : (Mutation.tagsDestroy ids).countChange .tag = -(2 ^ 53) := by
    have hdestroyed : (Mutation.tagsDestroy ids).destroyed = ids.map (⟨Family.tag.typename, ·⟩) := rfl
    rw [Mutation.countChange_of_destroyed rfl hdestroyed, Pi.single_eq_same, h]
    decide +kernel
  have happlied : (withCounts 0 (2 ^ 53 + 1)).applied
      [{ mutation := .tagsDestroy ids, result := some (.bool true) }] = [.tagsDestroy ids] := rfl
  refine ⟨_, hrun, ?_⟩
  rw [hcount, happlied, List.map_singleton, List.sum_singleton, hlost]
  decide +kernel

/-- A count that 64 bits cannot hold stops the run, and lists longer than 2^53 are not counted right. -/
theorem counts_miss :
    ((withCounts 0 (2 ^ 63 - 1)).count? "stats" "tag_count" = some (2 ^ 63 - 1) ∧
      (withCounts 0 (2 ^ 63 - 1)).updateAll? [createdTag] = none) ∧
    (withCounts 0 (2 ^ 53 + 1)).count? "stats" "tag_count" = some (2 ^ 53 + 1) ∧
      ∃ d, (withCounts 0 (2 ^ 53 + 1)).updateAll?
          [{ mutation := .tagsDestroy (List.replicate (2 ^ 53 + 1) "1"), result := some (.bool true) }] =
            some d ∧
        d.count? "stats" "tag_count" = some 1 :=
  ⟨⟨by decide +kernel, by decide +kernel⟩, by decide +kernel, count?_of_many_lost List.length_replicate⟩

end Cache

end MediaCache
