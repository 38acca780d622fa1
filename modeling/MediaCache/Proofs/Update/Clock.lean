import MediaCache.Proofs.Store.Index
import MediaCache.Proofs.Store.Prune
import MediaCache.Proofs.Store.Read
import MediaCache.Proofs.Update.Ended
import MediaCache.Proofs.Update.Eviction
import MediaCache.Store.Snapshot

/-!
# Clocks do not matter

The time goes into one field of a scene that was played, and nothing that is done to the cache looks at
it. Updates at other times lead to caches that differ in such times only.
-/

namespace MediaCache

def timeField : String := "last_played_at"

/-- The values of a field are the same, or both are times of plays. -/
def TimesApart (p q : String → Prop) (field : String) (v w : Option Json) : Prop :=
  v = w ∨ field = timeField ∧ ∃ s t, v = some (.string s) ∧ w = some (.string t) ∧ p s ∧ q t

/-- The records differ in a time of a play at most. -/
def Record.SameButTimes (p q : String → Prop) (r s : Record) : Prop :=
  ∀ field, TimesApart p q field (r.get? field) (s.get? field)

variable {p q : String → Prop} {field : String}

theorem TimesApart.eq_of_ne {v w : Option Json} (h : TimesApart p q field v w)
    (hfield : field ≠ timeField) : v = w :=
  h.resolve_right fun htime => hfield htime.1

def FieldUpdate.TimesApart (p q : String → Prop) (field : String) (u w : FieldUpdate) : Prop :=
  u = w ∨ field = timeField ∧ ∃ s t, u = .set (.string s) ∧ w = .set (.string t) ∧ p s ∧ q t

namespace Record.SameButTimes

variable {r s : Record}

theorem refl (r : Record) : Record.SameButTimes p q r r := fun _ => .inl rfl

theorem insert (h : Record.SameButTimes p q r s) {v w : Json}
    (hv : MediaCache.TimesApart p q field (some v) (some w)) :
    Record.SameButTimes p q (SortedMap.insert r field v) (SortedMap.insert s field w) := by
  intro key
  rw [SortedMap.get?_insert, SortedMap.get?_insert]
  split
  · rename_i hkey
    exact hkey ▸ hv
  · exact h key

theorem erase (h : Record.SameButTimes p q r s) (field : String) :
    Record.SameButTimes p q (SortedMap.erase r field) (SortedMap.erase s field) := by
  intro key
  rw [SortedMap.get?_erase, SortedMap.get?_erase]
  split
  · exact .inl rfl
  · exact h key

theorem insertAll (h : Record.SameButTimes p q r s) (fields : Json.Fields) :
    Record.SameButTimes p q (SortedMap.insertAll r fields) (SortedMap.insertAll s fields) := by
  intro key
  rw [SortedMap.get?_insertAll, SortedMap.get?_insertAll]
  cases Assoc.get? key fields.reverse with
  | some v => exact .inl rfl
  | none => exact h key

theorem mem_references_iff (h : Record.SameButTimes p q r s) (id : String) :
    id ∈ s.references ↔ id ∈ r.references := by
  rw [Record.mem_references_iff, Record.mem_references_iff]
  constructor
  · rintro ⟨key, v, hv, hid⟩
    rcases h key with hsame | ⟨-, t, u, -, hu, -⟩
    · exact ⟨key, v, hsame.trans hv, hid⟩
    · rw [hv] at hu
      cases hu
      simp [Json.references] at hid
  · rintro ⟨key, v, hv, hid⟩
    rcases h key with hsame | ⟨-, t, u, ht, -⟩
    · exact ⟨key, v, hsame.symm.trans hv, hid⟩
    · rw [hv] at ht
      cases ht
      simp [Json.references] at hid

end Record.SameButTimes

namespace Cache

structure SameButTimes (p q : String → Prop) (c d : Cache) : Prop where
  sameRoot : SameRoot c d
  index : d.index = c.index
  objects : ∀ id, Option.Rel (Record.SameButTimes p q) (c.objects.get? id) (d.objects.get? id)

variable {c d : Cache}

namespace SameButTimes

theorem refl (c : Cache) : SameButTimes p q c c := by
  refine ⟨SameRoot.refl c, rfl, fun id => ?_⟩
  cases c.objects.get? id with
  | none => exact .none
  | some r => exact .some (.refl r)

theorem lookup (h : SameButTimes p q c d) (id : String) :
    c.objects.get? id = none ∧ d.objects.get? id = none ∨
      ∃ r s, c.objects.get? id = some r ∧ d.objects.get? id = some s ∧ r.SameButTimes p q s := by
  have hrel := h.objects id
  revert hrel
  generalize c.objects.get? id = before
  generalize d.objects.get? id = after
  rintro (hrecord | _)
  · exact .inr ⟨_, _, rfl, rfl, hrecord⟩
  · exact .inl ⟨rfl, rfl⟩

theorem contains (h : SameButTimes p q c d) (id : String) :
    d.objects.contains id = c.objects.contains id := by
  rw [SortedMap.contains, SortedMap.contains]
  rcases h.lookup id with ⟨hc, hd⟩ | ⟨r, s, hc, hd, -⟩ <;> rw [hc, hd]
  rfl

theorem fieldValue? (h : SameButTimes p q c d) (obj : ObjectRef) (field : String) :
    TimesApart p q field (c.fieldValue? obj field) (d.fieldValue? obj field) := by
  rw [Cache.fieldValue?, Cache.fieldValue?, get?_eq, get?_eq]
  rcases h.lookup obj.cacheId with ⟨hc, hd⟩ | ⟨r, s, hc, hd, hrecord⟩
  · rw [hc, hd]
    exact .inl rfl
  · rw [hc, hd]
    exact hrecord field

theorem fieldValue?_eq (h : SameButTimes p q c d) (obj : ObjectRef) (hfield : field ≠ timeField) :
    d.fieldValue? obj field = c.fieldValue? obj field :=
  ((h.fieldValue? obj field).eq_of_ne hfield).symm

theorem objectsOfType (h : SameButTimes p q c d) (t : Typename) :
    d.objectsOfType t = c.objectsOfType t := by
  unfold Cache.objectsOfType Cache.indexed
  rw [h.index]

theorem referencesOf (h : SameButTimes p q c d) (id next : String) :
    next ∈ d.referencesOf id ↔ next ∈ c.referencesOf id := by
  rw [Cache.referencesOf, Cache.referencesOf]
  rcases h.lookup id with ⟨hc, hd⟩ | ⟨r, s, hc, hd, hrecord⟩
  · rw [hc, hd]
  · rw [hc, hd]
    exact hrecord.mem_references_iff next

theorem reaches_iff (h : SameButTimes p q c d) (id : String) : d.Reaches id ↔ c.Reaches id := by
  have hroots : d.rootReferences = c.rootReferences := h.sameRoot.rootReferences
  constructor
  · exact Reaches.mono (fun _ hid => hroots ▸ hid) fun i n => (h.referencesOf i n).1
  · exact Reaches.mono (fun _ hid => hroots ▸ hid) fun i n => (h.referencesOf i n).2

/-! ## Operations -/

theorem applyToField (h : SameButTimes p q c d) (obj : ObjectRef) {u w : FieldUpdate}
    (hu : FieldUpdate.TimesApart p q field u w) :
    SameButTimes p q (c.applyToField obj field u) (d.applyToField obj field w) := by
  obtain ⟨hc, hcindex⟩ := sameRoot_applyToField c obj field u
  obtain ⟨hd, hdindex⟩ := sameRoot_applyToField d obj field w
  refine ⟨⟨?_, ?_, ?_, ?_⟩, ?_, fun id => ?_⟩
  · rw [hd.policies, hc.policies, h.sameRoot.policies]
  · rw [hd.root, hc.root, h.sameRoot.root]
  · rw [hd.selections, hc.selections, h.sameRoot.selections]
  · rw [hd.retained, hc.retained, h.sameRoot.retained]
  · rw [hdindex, hcindex, h.index]
  · rw [get?_applyToField, get?_applyToField]
    rcases h.lookup id with ⟨hc, hd⟩ | ⟨r, s, hc, hd, hrecord⟩
    · rw [hc, hd]
      exact .none
    · rw [hc, hd]
      refine .some ?_
      split
      · rcases hu with rfl | ⟨hfield, t, t', rfl, rfl, ht, ht'⟩
        · cases u with
          | keep => exact hrecord
          | set v => exact hrecord.insert (.inl rfl)
          | delete => exact hrecord.erase field
        · exact hrecord.insert (.inr ⟨hfield, t, t', rfl, rfl, ht, ht'⟩)
      · exact hrecord

theorem modifyField (h : SameButTimes p q c d) (obj : ObjectRef) {change other : Json → FieldUpdate}
    (hchange : ∀ v, FieldUpdate.TimesApart p q field (change v) (other v))
    (htimes : ∀ s t, FieldUpdate.TimesApart p q field (change (.string s)) (other (.string t))) :
    SameButTimes p q (c.modifyField obj field change).2 (d.modifyField obj field other).2 := by
  rw [Cache.modifyField, Cache.modifyField]
  rcases h.fieldValue? obj field with hsame | ⟨-, s, t, hs, ht, -⟩
  · rw [← hsame]
    split
    · exact h
    · exact h.applyToField obj (hchange _)
  · rw [hs, ht]
    exact h.applyToField obj (htimes s t)

theorem evictField (h : SameButTimes p q c d) (obj : ObjectRef) (field : String) :
    SameButTimes p q (c.evictField obj field).2 (d.evictField obj field).2 :=
  h.modifyField obj (fun _ => .inl rfl) fun _ _ => .inl rfl

theorem evictObject (h : SameButTimes p q c d) (obj : ObjectRef) :
    SameButTimes p q (c.evictObject obj).2 (d.evictObject obj).2 := by
  rw [Cache.evictObject, Cache.evictObject, contains_eq, contains_eq, h.contains]
  split
  · refine ⟨⟨h.sameRoot.policies, h.sameRoot.root, h.sameRoot.selections, h.sameRoot.retained⟩,
      congrArg (indexErase · obj.typename obj.cacheId) h.index, fun id => ?_⟩
    simp only [SortedMap.get?_erase]
    split
    · exact .none
    · exact h.objects id
  · exact h

theorem modifyRoot (h : SameButTimes p q c d) (field : String) (change : String → Json → FieldUpdate) :
    SameButTimes p q (c.modifyRoot field change).2 (d.modifyRoot field change).2 := by
  have hc := sameStore_modifyRoot c field change
  have hd := sameStore_modifyRoot d field change
  have hentries (name : String) :
      (d.modifyRoot field change).2.entry name = (c.modifyRoot field change).2.entry name := by
    rw [entry_modifyRoot, entry_modifyRoot, h.sameRoot.root, h.sameRoot.entry]
  refine ⟨⟨?_, ?_, ?_, ?_⟩, ?_, fun id => ?_⟩
  · rw [hd.policies, hc.policies, h.sameRoot.policies]
  · exact SortedMap.ext fun name => congrArg Prod.fst (hentries name)
  · exact SortedMap.ext fun name => congrArg Prod.snd (hentries name)
  · rw [hd.retained, hc.retained, h.sameRoot.retained]
  · rw [hd.index, hc.index, h.index]
  · rw [hd.objects, hc.objects]
    exact h.objects id

theorem collect (h : SameButTimes p q c d) : SameButTimes p q c.collect.2 d.collect.2 := by
  have hremoved (id : String) :
      d.collect.1.removed.contains id = c.collect.1.removed.contains id := by
    rw [Bool.eq_iff_iff, List.contains_iff_mem, List.contains_iff_mem, mem_removed_iff, mem_removed_iff,
      h.contains, h.reaches_iff]
  refine ⟨⟨h.sameRoot.policies, h.sameRoot.root, h.sameRoot.selections, h.sameRoot.retained⟩, ?_,
    fun id => ?_⟩
  · rw [index_collect, index_collect, h.index]
    simp only [hremoved]
  · rw [get?_collect, get?_collect]
    by_cases hreach : c.Reaches id
    · rw [if_pos hreach, if_pos ((h.reaches_iff id).2 hreach)]
      exact h.objects id
    · rw [if_neg hreach, if_neg fun hd => hreach ((h.reaches_iff id).1 hd)]
      exact .none

theorem mergeObject (h : SameButTimes p q c d) (obj : ObjectRef) (fields : Json.Fields) :
    SameButTimes p q (c.mergeObject obj fields) (d.mergeObject obj fields) := by
  refine ⟨⟨h.sameRoot.policies, h.sameRoot.root, h.sameRoot.selections, h.sameRoot.retained⟩,
    congrArg (indexAdd · obj.typename obj.cacheId) h.index, fun id => ?_⟩
  unfold Cache.mergeObject
  simp only [SortedMap.get?_insert]
  split
  · refine .some (Record.SameButTimes.insertAll ?_ fields)
    rcases h.lookup obj.cacheId with ⟨hc, hd⟩ | ⟨r, s, hc, hd, hrecord⟩
    · rw [hc, hd]
      exact .refl _
    · rw [hc, hd]
      exact hrecord
  · exact h.objects id

theorem foldl {α : Type} {f g : Cache → α → Cache} (l : List α) (h : SameButTimes p q c d)
    (hf : ∀ a ∈ l, ∀ c d, SameButTimes p q c d → SameButTimes p q (f c a) (g d a)) :
    SameButTimes p q (l.foldl f c) (l.foldl g d) := by
  induction l generalizing c d with
  | nil => exact h
  | cons a rest ih =>
    exact ih (hf a List.mem_cons_self c d h) fun b hb => hf b (List.mem_cons_of_mem _ hb)

theorem storeEntities (h : SameButTimes p q c d) (v : Json) :
    SameButTimes p q (c.storeEntities v) (d.storeEntities v) :=
  h.foldl v.entities fun e _ _ _ h => h.mergeObject e.1 e.2

theorem writeObject (h : SameButTimes p q c d) (v : Json) :
    SameButTimes p q (c.writeObject v).2 (d.writeObject v).2 := by
  rw [Cache.writeObject, Cache.writeObject]
  split
  · exact h.storeEntities v
  · exact h

theorem writeRoot (h : SameButTimes p q c d) (field : String) (args : Option Json) (data : Json) :
    SameButTimes p q (c.writeRoot field args data) (d.writeRoot field args data) := by
  have hstored := h.storeEntities data
  refine ⟨⟨hstored.sameRoot.policies, ?_, ?_, hstored.sameRoot.retained⟩, hstored.index,
    hstored.objects⟩
  · exact congrArg (SortedMap.insert · _ _) hstored.sameRoot.root
  · exact congrArg (SortedMap.insert · _ _) hstored.sameRoot.selections

theorem writeField (h : SameButTimes p q c d) (obj : ObjectRef) (field : String) (v : Json) :
    SameButTimes p q (c.writeField obj field v).2 (d.writeField obj field v).2 := by
  rw [Cache.writeField, Cache.writeField, contains_eq, contains_eq, h.contains]
  split
  · exact (h.storeEntities v).applyToField obj (u := .set v.normalized) (w := .set v.normalized) (.inl rfl)
  · exact h

/-! ## Evictions and patches -/

theorem evictFields (h : SameButTimes p q c d) (obj : ObjectRef) (names : List String) :
    SameButTimes p q (c.evictFields obj names).2 (d.evictFields obj names).2 := by
  rw [evictFields_eq, evictFields_eq]
  exact h.foldl names fun name _ _ _ h => h.evictField obj name

theorem evictTypeFields (h : SameButTimes p q c d) (fields : TypeFields) (ignore : Option ObjectRef) :
    SameButTimes p q (c.evictTypeFields fields ignore).2 (d.evictTypeFields fields ignore).2 := by
  rw [evictTypeFields_eq, evictTypeFields_eq]
  refine h.foldl fields.rows fun row _ c d h => ?_
  rw [h.objectsOfType]
  refine h.foldl _ fun obj _ c d h => ?_
  split
  · exact h
  · exact h.evictFields obj row.2

theorem evictQueries (h : SameButTimes p q c d) (docs : List Document) (options : Options) :
    SameButTimes p q (c.evictQueries docs options).2 (d.evictQueries docs options).2 := by
  have hdropped : SameButTimes p q (c.dropQueries docs) (d.dropQueries docs) :=
    h.foldl docs fun doc _ _ _ h => h.modifyRoot doc.rootField _
  rw [evictQueries_eq, evictQueries_eq]
  split
  · exact hdropped.collect
  · exact hdropped

theorem addToStat (h : SameButTimes p q c d) (stat : String) (delta : Double) :
    SameButTimes p q (c.addToStat stat delta).2 (d.addToStat stat delta).2 := by
  unfold Cache.addToStat
  simp only
  exact h.modifyRoot Document.stats.rootField _

theorem dropStat (h : SameButTimes p q c d) (stat : String) :
    SameButTimes p q (c.dropStat stat).2 (d.dropStat stat).2 := by
  unfold Cache.dropStat
  simp only
  exact h.modifyRoot Document.stats.rootField _

theorem addToField (h : SameButTimes p q c d) (obj : ObjectRef) (field : String) (delta : Double) :
    SameButTimes p q
      (c.modifyField obj field fun v =>
        match addNumber? v delta with
        | some next => .set next
        | none => .keep).2
      (d.modifyField obj field fun v =>
        match addNumber? v delta with
        | some next => .set next
        | none => .keep).2 :=
  h.modifyField obj (fun _ => .inl rfl) fun _ _ => .inl rfl

/-! ## Counters -/

theorem readFragment (h : SameButTimes p q c d) (obj : ObjectRef) {fragment : Fragment}
    (hfields : timeField ∉ fragment.fields) :
    d.readFragment obj fragment = c.readFragment obj fragment := by
  unfold Cache.readFragment
  rw [get?_eq, get?_eq]
  rcases h.lookup obj.cacheId with ⟨hc, hd⟩ | ⟨r, s, hc, hd, hrecord⟩
  · rw [hc, hd]
  · have hread : (fragment.fields.mapM fun f => (s.get? f).map (f, ·)) =
        fragment.fields.mapM fun f => (r.get? f).map (f, ·) := by
      refine mapM_congr fun f hf => ?_
      rw [(hrecord f).eq_of_ne (ne_of_mem_of_not_mem hf hfields)]
    rw [hc, hd]
    simp only [Option.bind_eq_bind, Option.bind_some, hread]

theorem patchPerformer (delta : Double) {counts other : PerformerCounts}
    (h : SameButTimes p q counts.cache other.cache) (performer : ObjectRef) :
    SameButTimes p q (Cache.patchPerformer delta counts performer).cache
      (Cache.patchPerformer delta other performer).cache := by
  unfold Cache.patchPerformer
  rw [h.fieldValue?_eq performer (by decide)]
  split
  · exact h
  · split
    · rename_i next _
      exact h.applyToField performer (u := .set next) (.inl rfl)
    · exact h.applyToField performer (u := .delete) (.inl rfl)

theorem patchPerformers (delta : Double) (performers : List ObjectRef) {counts other : PerformerCounts}
    (h : SameButTimes p q counts.cache other.cache) :
    SameButTimes p q (performers.foldl (Cache.patchPerformer delta) counts).cache
      (performers.foldl (Cache.patchPerformer delta) other).cache := by
  induction performers generalizing counts other with
  | nil => exact h
  | cons performer rest ih => exact ih (h.patchPerformer delta performer)

theorem not_mem_fragment (target : CounterTarget) : timeField ∉ target.fragment.fields := by
  cases target <;> decide

theorem spreadCounter (h : SameButTimes p q c d) (target : CounterTarget) (obj : ObjectRef)
    (op : CounterOp) :
    SameButTimes p q (c.spreadCounter target obj op).2 (d.spreadCounter target obj op).2 := by
  unfold Cache.spreadCounter
  rw [h.readFragment obj (not_mem_fragment target)]
  split
  · exact (patchPerformers _ _ h).addToStat _ _
  · exact (h.evictTypeFields _ none).dropStat _

theorem patchCounter (h : SameButTimes p q c d) (target : CounterTarget) (id : String) (op : CounterOp)
    (value : Int) (options : Options) :
    SameButTimes p q (c.patchCounter target id op value options).2
      (d.patchCounter target id op value options).2 :=
  ((h.spreadCounter target _ op).writeField _ _ _).evictQueries _ options

theorem playCount? (h : SameButTimes p q c d) (scene : ObjectRef) :
    d.playCount? scene = c.playCount? scene := by
  rw [Cache.playCount?, Cache.playCount?, h.fieldValue?_eq scene (by decide)]

/-- The one step that looks at the clock. -/
theorem countPlay (h : SameButTimes p q c d) (scene : ObjectRef) {now later : String} (hnow : p now)
    (hlater : q later) : SameButTimes p q (c.countPlay scene now) (d.countPlay scene later) := by
  have hdated : ∀ c d : Cache, SameButTimes p q c d →
      SameButTimes p q
        ((c.modifyField scene "last_played_at" fun _ => .set (.string now)).2.addToStat
          "total_play_count" (Double.ofInt 1)).2
        ((d.modifyField scene "last_played_at" fun _ => .set (.string later)).2.addToStat
          "total_play_count" (Double.ofInt 1)).2 := by
    intro c d h
    have hset : FieldUpdate.TimesApart p q "last_played_at" (.set (.string now)) (.set (.string later)) :=
      .inr ⟨rfl, now, later, rfl, rfl, hnow, hlater⟩
    exact (h.modifyField scene (fun _ => hset) fun _ _ => hset).addToStat _ _
  unfold Cache.countPlay
  rw [h.playCount? scene]
  cases c.playCount? scene with
  | none => exact (hdated _ _ h).dropStat _
  | some n =>
    have hcounted : SameButTimes p q
        (c.applyToField scene "play_count" (.set (.int (wrapInt64 (n + 1)))))
        (d.applyToField scene "play_count" (.set (.int (wrapInt64 (n + 1))))) :=
      h.applyToField scene (.inl rfl)
    simp only
    split
    · exact (hdated _ _ hcounted).addToStat _ _
    · exact hdated _ _ hcounted

/-! ## Plans -/

variable {now later : String} {options : Options}

theorem step (h : SameButTimes p q c d) (hnow : p now) (hlater : q later) (step : Step) :
    SameButTimes p q (step.run options now c) (step.run options later d) := by
  cases step with
  | appendReference obj list => exact h.modifyRoot list.rootField _
  | addToStat stat delta => exact h.addToStat stat delta
  | deleteObject obj lookup => exact (h.writeRoot _ _ .null).evictObject obj
  | evictObject obj => exact h.evictObject obj
  | evictField obj field => exact h.evictField obj field
  | evictTypeFields fields ignore => exact h.evictTypeFields fields ignore
  | evictQueries docs => exact h.evictQueries docs options
  | replaceField obj field v => exact h.modifyField obj (fun _ => .inl rfl) fun _ _ => .inl rfl
  | addToField obj field delta => exact h.addToField obj field delta
  | countPlay scene => exact h.countPlay scene hnow hlater
  | patchCounter target id op value => exact h.patchCounter target id op value options

theorem run (h : SameButTimes p q c d) (hnow : p now) (hlater : q later) (plan : Plan) :
    SameButTimes p q (plan.run options now c) (plan.run options later d) :=
  h.foldl plan fun step _ _ _ h => h.step hnow hlater step

theorem writeResult (h : SameButTimes p q c d) (subject : Subject) (result : Json) :
    SameButTimes p q (c.writeResult subject result) (d.writeResult subject result) := by
  refine h.foldl _ fun v _ _ _ h => ?_
  cases v with
  | object fields => exact h.writeObject _
  | _ => exact h

theorem applyMutation (h : SameButTimes p q c d) (hnow : p now) (hlater : q later) (m : Mutation)
    (result : Option Json) :
    SameButTimes p q (c.applyMutation options now m result).2
      (d.applyMutation options later m result).2 := by
  unfold Cache.applyMutation
  split
  · exact h
  · exact (h.writeResult _ _).run hnow hlater _

/-! ## Sums -/

theorem fieldFits (h : SameButTimes p q c d) (obj : ObjectRef) (field : String) (delta : Double) :
    d.fieldFits obj field delta = c.fieldFits obj field delta := by
  rw [Cache.fieldFits, Cache.fieldFits]
  rcases h.fieldValue? obj field with hsame | ⟨-, s, t, hs, ht, -⟩
  · rw [hsame]
  · rw [hs, ht]
    rfl

theorem statFits (h : SameButTimes p q c d) (stat : String) (delta : Double) :
    d.statFits stat delta = c.statFits stat delta := by
  rw [Cache.statFits, Cache.statFits, rootEntries, rootEntries, h.sameRoot.root]

theorem performersFit (delta : Double) (performers : List ObjectRef) (counts other : PerformerCounts)
    (h : SameButTimes p q counts.cache other.cache) :
    Cache.performersFit delta other performers = Cache.performersFit delta counts performers := by
  induction performers generalizing counts other with
  | nil => rfl
  | cons performer rest ih =>
    rw [Cache.performersFit, Cache.performersFit, h.fieldFits, ih _ _ (h.patchPerformer delta performer)]

theorem fits (h : SameButTimes p q c d) (step : Step) : step.fits d = step.fits c := by
  cases step with
  | addToStat stat delta => exact h.statFits stat delta
  | addToField obj field delta => exact h.fieldFits obj field delta
  | countPlay scene =>
    rw [Step.fits, Step.fits, Cache.playFits, Cache.playFits, h.playCount? scene, h.statFits, h.statFits]
  | patchCounter target id op value =>
    rw [Step.fits, Step.fits, Cache.counterFits, Cache.counterFits,
      h.readFragment _ (not_mem_fragment target)]
    split
    · rename_i fragment _
      have hperformers := performersFit (Double.ofInt (op.delta (countIn fragment)))
        (performersIn fragment) { cache := c } { cache := d } h
      simp only [hperformers, h.statFits]
    · rfl
  | _ => rfl

theorem run? (h : SameButTimes p q c d) (hnow : p now) (hlater : q later) (plan : Plan) :
    Option.Rel (SameButTimes p q) (plan.run? options now c) (plan.run? options later d) := by
  induction plan generalizing c d with
  | nil => exact .some h
  | cons step rest ih =>
    rw [Plan.run?_cons, Plan.run?_cons, Step.run?, Step.run?, h.fits]
    split
    · exact ih (h.step hnow hlater step)
    · exact .none

theorem applyMutation? (h : SameButTimes p q c d) (hnow : p now) (hlater : q later) (m : Mutation)
    (result : Option Json) :
    Option.Rel (SameButTimes p q) ((c.applyMutation? options now m result).map (·.2))
      ((d.applyMutation? options later m result).map (·.2)) := by
  unfold Cache.applyMutation?
  split
  · exact .some h
  · simp only [Option.map_map]
    rw [Function.comp_def, Option.map_id', Option.map_id']
    exact (h.writeResult _ _).run? hnow hlater _

end SameButTimes

end Cache

/-! ## Snapshots -/

structure Snapshot.SameButTimes (p q : String → Prop) (a b : Snapshot) : Prop where
  selections : b.selections = a.selections
  root : b.objects.get? rootKey = a.objects.get? rootKey
  objects : ∀ id, Option.Rel (Record.SameButTimes p q) (a.objects.get? id) (b.objects.get? id)

theorem Cache.SameButTimes.extract {c d : Cache} (h : Cache.SameButTimes p q c d) :
    Snapshot.SameButTimes p q c.extract d.extract := by
  refine ⟨h.sameRoot.selections, ?_, fun id => ?_⟩
  · simp only [Cache.extract, SortedMap.get?_insert, if_pos, h.sameRoot.root]
  · simp only [Cache.extract, SortedMap.get?_insert]
    split
    · rw [h.sameRoot.root]
      exact .some (.refl _)
    · exact h.objects id

end MediaCache
