import MediaCache.Proofs.Store.Index
import MediaCache.Proofs.Update.Statistics
import MediaCache.Update.Counter

/-!
# What one counter call does

A call on a stored object changes the counter of the object, those of the performers it lists and the
total. Whatever is left of the rest is as it was.
-/

namespace MediaCache

namespace Cache

/-! ## Fragments -/

theorem fields_of_mapM {record : Record} {names : List String} {fields : Json.Fields}
    (h : (names.mapM fun name => (record.get? name).map (name, ·)) = some fields) :
    fields.map (·.1) = names ∧ ∀ e ∈ fields, record.get? e.1 = some e.2 := by
  induction names generalizing fields with
  | nil =>
    cases h
    exact ⟨rfl, by simp⟩
  | cons name rest ih =>
    rw [List.mapM_cons] at h
    obtain ⟨e, he, h⟩ := Option.bind_eq_some_iff.1 h
    obtain ⟨more, hmore, h⟩ := Option.bind_eq_some_iff.1 h
    obtain ⟨v, hv, rfl⟩ := Option.map_eq_some_iff.1 he
    obtain ⟨hnames, hvalues⟩ := ih hmore
    cases h
    refine ⟨by rw [List.map_cons, hnames], fun e he => ?_⟩
    rcases List.mem_cons.1 he with rfl | he
    · exact hv
    · exact hvalues e he

theorem get?_readFragment {c : Cache} {obj : ObjectRef} {fragment : Fragment} {read : Record}
    (h : c.readFragment obj fragment = some read) :
    c.contains obj = true ∧ ∀ name ∈ fragment.fields, read.get? name = c.fieldValue? obj name := by
  unfold readFragment at h
  split at h
  · obtain ⟨record, hrecord, h⟩ := Option.bind_eq_some_iff.1 h
    obtain ⟨fields, hfields, h⟩ := Option.bind_eq_some_iff.1 h
    obtain ⟨hnames, hvalues⟩ := fields_of_mapM hfields
    cases h
    refine ⟨?_, fun name hname => ?_⟩
    · rw [contains_eq, SortedMap.contains, ← get?_eq, hrecord]
      rfl
    · have hin : name ∈ fields.reverse.map (·.1) := by
        rw [List.map_reverse, List.mem_reverse, hnames]
        exact hname
      obtain ⟨v, hv⟩ := Option.isSome_iff_exists.1 (Assoc.get?_isSome_iff.2 hin)
      have hstored := hvalues (name, v) (List.mem_reverse.1 (Assoc.mem_of_get? hv))
      have hget : (SortedMap.ofList fields).get? name =
          (Assoc.get? name fields.reverse).or (Assoc.get? name []) := Assoc.get?_insertAll _ _ _
      rw [hget, hv, Option.some_or, fieldValue?, hrecord, Option.bind_some, hstored]
  · cases h

/-- The counter of an object, where anything but an integer counts as none. -/
def counted (c : Cache) (obj : ObjectRef) : Int :=
  ((c.fieldValue? obj counterField).bind Json.asInt64?).getD 0

def performersOf (c : Cache) (obj : ObjectRef) : List ObjectRef :=
  match c.fieldValue? obj "performers" with
  | some (.array items) => items.filterMap ObjectRef.ofReference?
  | _ => []

theorem countIn_readFragment {c : Cache} {target : CounterTarget} {obj : ObjectRef} {read : Record}
    (h : c.readFragment obj target.fragment = some read) : countIn read = c.counted obj := by
  unfold countIn counted
  rw [(get?_readFragment h).2 counterField (by simp [CounterTarget.fragment, counterField])]

theorem performersIn_readFragment {c : Cache} {target : CounterTarget} {obj : ObjectRef}
    {read : Record} (h : c.readFragment obj target.fragment = some read) :
    performersIn read = c.performersOf obj := by
  have hget := (get?_readFragment h).2 "performers" (by simp [CounterTarget.fragment])
  unfold performersIn performersOf
  cases hv : c.fieldValue? obj "performers" with
  | none => simp only [hget, hv]
  | some v => cases v <;> simp only [hget, hv]

/-! ## Performers -/

theorem sameRoot_patchPerformer (delta : Double) (counts : PerformerCounts) (q : ObjectRef) :
    SameRoot counts.cache (patchPerformer delta counts q).cache := by
  unfold patchPerformer
  split
  · exact SameRoot.refl _
  · split
    · rename_i next _
      exact (sameRoot_applyToField counts.cache q counterField (.set next)).1
    · exact (sameRoot_applyToField counts.cache q counterField .delete).1

@[simp]
theorem contains_patchPerformer (delta : Double) (counts : PerformerCounts) (q : ObjectRef)
    (id : String) :
    (patchPerformer delta counts q).cache.objects.contains id = counts.cache.objects.contains id := by
  unfold patchPerformer
  split
  · rfl
  · split
    · exact contains_applyToField _ q counterField _ id
    · exact contains_applyToField _ q counterField _ id

theorem fieldValue?_patchPerformer_of_ne (delta : Double) (counts : PerformerCounts) {q o : ObjectRef}
    {field : String} (h : ¬(o = q ∧ field = counterField)) :
    (patchPerformer delta counts q).cache.fieldValue? o field = counts.cache.fieldValue? o field := by
  unfold patchPerformer
  split
  · rfl
  · split
    · exact fieldValue?_applyToField_of_ne _ _ h
    · exact fieldValue?_applyToField_of_ne _ _ h

theorem fieldValue?_patchPerformer_self {delta : Double} (hdelta : delta.isWhole = true)
    (counts : PerformerCounts) {q : ObjectRef} {i : Int}
    (h : (counts.cache.fieldValue? q counterField).bind Json.asInt64? = some i) :
    (patchPerformer delta counts q).cache.fieldValue? q counterField =
      some (.int (wrapInt64 (i + clampInt64 delta.truncate))) := by
  obtain ⟨v, hv, hi⟩ := Option.bind_eq_some_iff.1 h
  unfold patchPerformer
  simp only [hv, addNumber?_of_asInt64? hi hdelta]
  exact fieldValue?_applyToField_self _ q counterField _ hv

theorem sameRoot_foldl_patchPerformer (delta : Double) (performers : List ObjectRef)
    (counts : PerformerCounts) :
    SameRoot counts.cache (performers.foldl (patchPerformer delta) counts).cache := by
  induction performers generalizing counts with
  | nil => exact SameRoot.refl _
  | cons q rest ih => exact (sameRoot_patchPerformer delta counts q).trans (ih _)

@[simp]
theorem contains_foldl_patchPerformer (delta : Double) (performers : List ObjectRef)
    (counts : PerformerCounts) (id : String) :
    (performers.foldl (patchPerformer delta) counts).cache.objects.contains id =
      counts.cache.objects.contains id := by
  induction performers generalizing counts with
  | nil => rfl
  | cons q rest ih => rw [List.foldl_cons, ih, contains_patchPerformer]

theorem fieldValue?_foldl_patchPerformer_of_ne (delta : Double) (performers : List ObjectRef)
    (counts : PerformerCounts) {o : ObjectRef} {field : String}
    (h : ¬(o ∈ performers ∧ field = counterField)) :
    (performers.foldl (patchPerformer delta) counts).cache.fieldValue? o field =
      counts.cache.fieldValue? o field := by
  induction performers generalizing counts with
  | nil => rfl
  | cons q rest ih =>
    rw [List.foldl_cons, ih _ fun hin => h ⟨List.mem_cons_of_mem _ hin.1, hin.2⟩]
    refine fieldValue?_patchPerformer_of_ne delta counts fun he => h ⟨?_, he.2⟩
    rw [he.1]
    exact List.mem_cons_self

theorem fieldValue?_foldl_patchPerformer {delta : Double} (hdelta : delta.isWhole = true)
    {performers : List ObjectRef} (hnodup : performers.Nodup) (counts : PerformerCounts)
    {p : ObjectRef} (hp : p ∈ performers) {i : Int}
    (h : (counts.cache.fieldValue? p counterField).bind Json.asInt64? = some i) :
    (performers.foldl (patchPerformer delta) counts).cache.fieldValue? p counterField =
      some (.int (wrapInt64 (i + clampInt64 delta.truncate))) := by
  induction performers generalizing counts with
  | nil => cases hp
  | cons q rest ih =>
    obtain ⟨hnot, hrest⟩ := List.nodup_cons.1 hnodup
    rw [List.foldl_cons]
    by_cases hq : p = q
    · subst hq
      rw [fieldValue?_foldl_patchPerformer_of_ne _ _ _ fun hin => hnot hin.1]
      exact fieldValue?_patchPerformer_self hdelta counts h
    · refine ih hrest _ ((List.mem_cons.1 hp).resolve_left hq) ?_
      rw [fieldValue?_patchPerformer_of_ne _ _ fun he => hq he.1]
      exact h

/-! ## The whole call -/

theorem writeField_int {c : Cache} {obj : ObjectRef} (h : c.contains obj = true) (field : String)
    (i : Int) : (c.writeField obj field (.int i)).2 = c.setField obj field (.int i) := by
  unfold writeField
  rw [if_pos h]
  rfl

theorem fieldValue?_writeField_int_self {c : Cache} {obj : ObjectRef} (h : c.contains obj = true)
    (field : String) (i : Int) :
    (c.writeField obj field (.int i)).2.fieldValue? obj field = some (.int i) := by
  obtain ⟨r, hr⟩ := Option.isSome_iff_exists.1 h
  have hget : c.get? obj = some r := hr
  rw [writeField_int h]
  unfold setField
  simp only [hget]
  simp [fieldValue?, get?_eq]

theorem fieldValue?_writeField_int_of_ne (c : Cache) {obj o : ObjectRef} {field f : String} (i : Int)
    (h : ¬(o = obj ∧ f = field)) :
    (c.writeField obj field (.int i)).2.fieldValue? o f = c.fieldValue? o f := by
  unfold writeField
  split
  · exact fieldValue?_applyToField_of_ne c (.set (.int i)) h
  · rfl

theorem sameRoot_writeField_int (c : Cache) (obj : ObjectRef) (field : String) (i : Int) :
    SameRoot c (c.writeField obj field (.int i)).2 := by
  unfold writeField
  split
  · exact (sameRoot_applyToField c obj field (.set (.int i))).1
  · exact SameRoot.refl c

theorem rootField_counterQueries_ne_stats (target : CounterTarget) :
    ∀ doc ∈ (Impact.of target.family).counterQueries, doc.rootField ≠ Document.stats.rootField := by
  cases target <;> decide

end Cache

/-- What a call on a stored object makes of the cache. An object that nothing refers to any more may
have been collected; what is said of objects is said of those that are left. -/
structure CounterEffect (c d : Cache) (obj : ObjectRef) (delta value : Int) : Prop where
  own : d.contains obj = true → d.fieldValue? obj Cache.counterField = some (.int value)
  performer : (c.performersOf obj).Nodup → ∀ p ∈ c.performersOf obj, p ≠ obj → ∀ i,
    (c.fieldValue? p Cache.counterField).bind Json.asInt64? = some i → d.contains p = true →
      d.fieldValue? p Cache.counterField =
        some (.int (wrapInt64 (i + clampInt64 (Double.ofInt delta).truncate)))
  other : ∀ o field, ¬(o = obj ∧ field = Cache.counterField) →
    ¬(o ∈ c.performersOf obj ∧ field = Cache.counterField) → d.contains o = true →
      d.fieldValue? o field = c.fieldValue? o field
  stats : ∀ name, baseFieldName name = Document.stats.rootField →
    (d.entry name).1 = (c.entry name).1.map (Cache.addedStat Cache.totalCount (Double.ofInt delta))

namespace Cache

theorem counterEffect_of_resident {c counts : Cache} {obj : ObjectRef} {delta value : Int}
    (hcounts : counts =
      ((c.performersOf obj).foldl (patchPerformer (Double.ofInt delta)) { cache := c }).cache)
    (hobj : c.contains obj = true) (target : CounterTarget) (options : Options) :
    CounterEffect c
      (((counts.addToStat totalCount (Double.ofInt delta)).2.writeField obj counterField
        (.int value)).2.evictQueries (Impact.of target.family).counterQueries options).2
      obj delta value := by
  have hadded := sameStore_addToStat counts totalCount (Double.ofInt delta)
  -- Nothing but the own counter differs from the cache after the performers were patched.
  have hpatched : ∀ o field, ¬(o = obj ∧ field = counterField) →
      ((counts.addToStat totalCount (Double.ofInt delta)).2.writeField obj counterField
        (.int value)).2.fieldValue? o field = counts.fieldValue? o field := by
    intro o field hne
    rw [fieldValue?_writeField_int_of_ne _ _ hne]
    unfold fieldValue?
    rw [get?_eq, get?_eq, hadded.objects]
  refine ⟨?_, ?_, ?_, ?_⟩
  · -- Its own counter is written last.
    intro hin
    have hstored : (counts.addToStat totalCount (Double.ofInt delta)).2.contains obj = true := by
      rw [contains_eq, hadded.objects, hcounts, contains_foldl_patchPerformer]
      exact hobj
    rw [fieldValue?_evictQueries_of_contains hin, fieldValue?_writeField_int_self hstored]
  · -- A performer that is left was patched once.
    intro hnodup p hp hne i hi hin
    rw [fieldValue?_evictQueries_of_contains hin, hpatched p counterField fun he => hne he.1, hcounts]
    exact fieldValue?_foldl_patchPerformer (Double.isWhole_ofInt delta) hnodup _ hp hi
  · intro o field hne hnot hin
    rw [fieldValue?_evictQueries_of_contains hin, hpatched o field hne, hcounts,
      fieldValue?_foldl_patchPerformer_of_ne _ _ _ hnot]
  · -- Counter queries are other entries than the statistics.
    intro name hstats
    have hroot : SameRoot c counts := by
      rw [hcounts]
      exact sameRoot_foldl_patchPerformer _ _ { cache := c }
    rw [entry_evictQueries_of_not_named fun doc hdoc => hstats ▸
        rootField_counterQueries_ne_stats target doc hdoc,
      (sameRoot_writeField_int _ obj counterField value).entry, entry_addToStat, if_pos hstats,
      hroot.entry]

theorem counterEffect_patchCounter {c : Cache} {target : CounterTarget} {id : String}
    {op : CounterOp} {value : Int} {options : Options} {delta : Int}
    {patched unresolved : List ObjectRef}
    (h : (c.patchCounter target id op value options).1 = .resident delta patched unresolved) :
    delta = op.delta (c.counted ⟨target.typename, id⟩) ∧
      CounterEffect c (c.patchCounter target id op value options).2 ⟨target.typename, id⟩ delta value := by
  unfold patchCounter at h ⊢
  simp only at h ⊢
  generalize (⟨target.typename, id⟩ : ObjectRef) = obj at h ⊢
  unfold spreadCounter at h ⊢
  cases hread : c.readFragment obj target.fragment with
  | none =>
    rw [hread] at h
    cases h
  | some read =>
    rw [hread] at h
    simp only [countIn_readFragment hread, performersIn_readFragment hread] at h ⊢
    cases h
    exact ⟨rfl, counterEffect_of_resident rfl (get?_readFragment hread).1 target options⟩

end Cache

end MediaCache
