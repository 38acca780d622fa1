import MediaCache.Proofs.Store.Collect

/-!
# The index is exact

`Indexed` says that the index lists the stored objects, each under its type, and nothing else. Every
operation of the cache keeps it, and it leaves no choice for the index: the stored objects determine it.
-/

namespace MediaCache

def Listed (index : SortedMap Typename (SortedSet String)) (t : Typename) (id : String) : Prop :=
  ∃ ids, index.get? t = some ids ∧ ids.contains id = true

namespace Cache

structure Indexed (c : Cache) : Prop where
  /-- Every object is stored under a cache id. -/
  keys : ∀ id, c.objects.contains id = true → ∃ obj : ObjectRef, obj.cacheId = id
  /-- A cache id is listed, under its type, exactly when its object is stored. -/
  listed : ∀ t id, Listed c.index t id ↔
    c.objects.contains id = true ∧ ∃ key, (⟨t, key⟩ : ObjectRef).cacheId = id
  /-- No type stands in the index without ids. -/
  nonempty : ∀ t ids, c.index.get? t = some ids → ∃ id, ids.contains id = true

/-! ## Lists of the index -/

theorem mem_indexed_iff (c : Cache) (t : Typename) (id : String) :
    id ∈ c.indexed t ↔ Listed c.index t id := by
  rw [indexed, Listed]
  cases c.index.get? t with
  | none => simp
  | some ids => simp

theorem listed_indexAdd (index : SortedMap Typename (SortedSet String)) (t u : Typename)
    (id j : String) : Listed (indexAdd index t id) u j ↔ (u = t ∧ j = id) ∨ Listed index u j := by
  rw [Listed, indexAdd, SortedMap.get?_insert]
  by_cases h : u = t
  · subst h
    simp only [if_true, Option.some.injEq, exists_eq_left', true_and, SortedSet.contains_add, Listed]
    cases index.get? u with
    | none => simp [SortedMap.contains]
    | some ids => simp
  · simp only [h, if_false, false_and, false_or, Listed]

theorem nonempty_indexAdd {index : SortedMap Typename (SortedSet String)}
    (h : ∀ t ids, index.get? t = some ids → ∃ id, ids.contains id = true) (t : Typename) (id : String) :
    ∀ u ids, (indexAdd index t id).get? u = some ids → ∃ j, ids.contains j = true := by
  intro u ids hids
  rw [indexAdd, SortedMap.get?_insert] at hids
  split at hids
  · cases hids
    exact ⟨id, (SortedSet.contains_add _ _ _).2 (.inl rfl)⟩
  · exact h u ids hids

theorem contains_erase (ids : SortedSet String) (id j : String) :
    (ids.erase id).contains j = true ↔ j ≠ id ∧ ids.contains j = true := by
  by_cases h : j = id <;> simp [SortedMap.contains, h]

theorem listed_indexErase (index : SortedMap Typename (SortedSet String)) (t u : Typename)
    (id j : String) :
    Listed (indexErase index t id) u j ↔ Listed index u j ∧ ¬(u = t ∧ j = id) := by
  rw [indexErase]
  cases hids : index.get? t with
  | none =>
    simp only
    constructor
    · rintro ⟨ids, hu, hj⟩
      refine ⟨⟨ids, hu, hj⟩, ?_⟩
      rintro ⟨rfl, -⟩
      rw [hids] at hu
      cases hu
    · exact fun h => h.1
  | some ids =>
    by_cases h : u = t
    · subst h
      -- The type is left out only when no id but the erased one was listed.
      by_cases hempty : (ids.erase id).isEmpty = true
      · simp only [hempty, if_true, Listed, SortedMap.get?_erase_self]
        constructor
        · rintro ⟨_, h, _⟩
          cases h
        · rintro ⟨⟨ids', hu, hj⟩, hne⟩
          rw [hids] at hu
          cases hu
          have hj' : (ids.erase id).contains j = true :=
            (contains_erase ids id j).2 ⟨fun he => hne ⟨trivial, he⟩, hj⟩
          have := (SortedMap.isEmpty_eq_false_iff _).2 ⟨j, hj'⟩
          rw [hempty] at this
          cases this
      · simp only [hempty, if_false, Listed, SortedMap.get?_insert_self, Option.some.injEq,
          exists_eq_left', contains_erase, hids, true_and, Bool.false_eq_true]
        exact and_comm
    · -- Other types keep their lists.
      have hget : (if (ids.erase id).isEmpty = true then index.erase t
          else index.insert t (ids.erase id)).get? u = index.get? u := by
        split
        · exact SortedMap.get?_erase_of_ne index h
        · exact SortedMap.get?_insert_of_ne index h _
      simp only [Listed, hget, h, false_and, not_false_eq_true, and_true]

theorem nonempty_indexErase {index : SortedMap Typename (SortedSet String)}
    (h : ∀ t ids, index.get? t = some ids → ∃ id, ids.contains id = true) (t : Typename) (id : String) :
    ∀ u ids, (indexErase index t id).get? u = some ids → ∃ j, ids.contains j = true := by
  intro u ids hu
  rw [indexErase] at hu
  split at hu
  · exact h u ids hu
  · rename_i old _
    by_cases hempty : (old.erase id).isEmpty = true
    · simp only [hempty, if_true] at hu
      rw [SortedMap.get?_erase] at hu
      split at hu
      · cases hu
      · exact h u ids hu
    · simp only [hempty] at hu
      rw [if_neg (by simp), SortedMap.get?_insert] at hu
      split at hu
      · cases hu
        exact (SortedMap.isEmpty_eq_false_iff _).1 (by simpa using hempty)
      · exact h u ids hu

/-- An exact index is determined by the stored objects. -/
theorem Indexed.index_eq {c d : Cache} (hc : c.Indexed) (hd : d.Indexed)
    (hids : ∀ id, c.objects.contains id = d.objects.contains id) : c.index = d.index := by
  have hlisted : ∀ t id, Listed c.index t id ↔ Listed d.index t id := by
    intro t id
    rw [hc.listed, hd.listed, hids]
  -- A type is listed only with some id, and that id shows it listed on the other side.
  have hsub : ∀ {c d : Cache}, c.Indexed → (∀ t id, Listed c.index t id ↔ Listed d.index t id) →
      ∀ {t ids}, c.index.get? t = some ids → d.index.get? t = some ids := by
    intro c d hc hlisted t ids hids
    obtain ⟨id, hid⟩ := hc.nonempty t ids hids
    obtain ⟨ids', hids', -⟩ := (hlisted t id).1 ⟨ids, hids, hid⟩
    rw [hids']
    congr 1
    apply SortedMap.ext
    intro j
    have hj := hlisted t j
    simp only [Listed, hids, hids', Option.some.injEq, exists_eq_left', SortedMap.contains] at hj
    cases h : ids.get? j <;> cases h' : ids'.get? j <;> simp [h, h'] at hj <;> rfl
  apply SortedMap.ext
  intro t
  cases h : c.index.get? t with
  | some ids => exact (hsub hc hlisted h).symm
  | none =>
    cases h' : d.index.get? t with
    | none => rfl
    | some ids =>
      rw [hsub hd (fun t id => (hlisted t id).symm) h'] at h
      cases h

/-! ## Operations keep the index exact -/

theorem indexed_new (policies : Policies) : (new policies).Indexed := by
  refine ⟨?_, ?_, ?_⟩
  · intro id h
    cases h
  · intro t id
    constructor
    · rintro ⟨ids, h, -⟩
      cases h
    · rintro ⟨h, -⟩
      cases h
  · intro t ids h
    cases h

theorem Indexed.of_same {c d : Cache} (h : c.Indexed) (hindex : d.index = c.index)
    (hids : ∀ id, d.objects.contains id = c.objects.contains id) : d.Indexed := by
  refine ⟨?_, ?_, ?_⟩
  · intro id hid
    exact h.keys id (by rw [← hids]; exact hid)
  · intro t id
    rw [hindex, hids]
    exact h.listed t id
  · rw [hindex]
    exact h.nonempty

theorem Indexed.of_sameStore {c d : Cache} (h : c.Indexed) (hsame : SameStore c d) : d.Indexed :=
  h.of_same hsame.index fun id => by rw [hsame.objects]

theorem Indexed.modifyField {c : Cache} (h : c.Indexed) (obj : ObjectRef) (field : String)
    (change : Json → FieldUpdate) : (c.modifyField obj field change).2.Indexed :=
  h.of_same (sameRoot_modifyField c obj field change).2 (contains_modifyField c obj field change)

theorem Indexed.insert {c d : Cache} (h : c.Indexed) {obj : ObjectRef}
    (hids : ∀ id, d.objects.contains id = true ↔ id = obj.cacheId ∨ c.objects.contains id = true)
    (hindex : d.index = indexAdd c.index obj.typename obj.cacheId) : d.Indexed := by
  refine ⟨?_, ?_, ?_⟩
  · intro id hid
    rcases (hids id).1 hid with rfl | hold
    · exact ⟨obj, rfl⟩
    · exact h.keys id hold
  · intro t id
    rw [hindex, listed_indexAdd, h.listed, hids]
    constructor
    · rintro (⟨rfl, rfl⟩ | ⟨hid, hkey⟩)
      · exact ⟨.inl rfl, obj.id, rfl⟩
      · exact ⟨.inr hid, hkey⟩
    · rintro ⟨rfl | hid, key, hkey⟩
      · have := ObjectRef.cacheId_inj hkey
        subst this
        exact .inl ⟨rfl, rfl⟩
      · exact .inr ⟨hid, key, hkey⟩
  · rw [hindex]
    exact nonempty_indexAdd h.nonempty _ _

@[simp]
theorem contains_insert_iff (objects : SortedMap String Record) (id j : String) (r : Record) :
    (objects.insert id r).contains j = true ↔ j = id ∨ objects.contains j = true := by
  by_cases h : j = id <;> simp [SortedMap.contains, h]

@[simp]
theorem contains_mergeObject (c : Cache) (obj : ObjectRef) (fields : Json.Fields) (id : String) :
    (c.mergeObject obj fields).objects.contains id = true ↔
      id = obj.cacheId ∨ c.objects.contains id = true :=
  contains_insert_iff c.objects obj.cacheId id _

@[simp]
theorem contains_storeEntities (c : Cache) (v : Json) (id : String) :
    (c.storeEntities v).objects.contains id = true ↔
      (∃ e ∈ v.entities, id = e.1.cacheId) ∨ c.objects.contains id = true := by
  rw [storeEntities]
  induction v.entities generalizing c with
  | nil => simp
  | cons e rest ih =>
    rw [List.foldl_cons, ih, contains_mergeObject]
    constructor
    · rintro (⟨f, hf, hid⟩ | hid | hold)
      · exact .inl ⟨f, List.mem_cons_of_mem _ hf, hid⟩
      · exact .inl ⟨e, List.mem_cons_self, hid⟩
      · exact .inr hold
    · rintro (⟨f, hf, hid⟩ | hold)
      · rcases List.mem_cons.1 hf with rfl | hf
        · exact .inr (.inl hid)
        · exact .inl ⟨f, hf, hid⟩
      · exact .inr (.inr hold)

theorem contains_of_contains_writeObject {c : Cache} {v : Json} {id : String}
    (h : (c.writeObject v).2.objects.contains id = true) :
    (∃ e ∈ v.entities, id = e.1.cacheId) ∨ c.objects.contains id = true := by
  rw [writeObject] at h
  split at h
  · exact (contains_storeEntities c v id).1 h
  · exact .inr h

theorem Indexed.mergeObject {c : Cache} (h : c.Indexed) (obj : ObjectRef) (fields : Json.Fields) :
    (c.mergeObject obj fields).Indexed :=
  h.insert (fun id => contains_insert_iff c.objects obj.cacheId id _) rfl

theorem Indexed.storeEntities {c : Cache} (h : c.Indexed) (v : Json) :
    (c.storeEntities v).Indexed := by
  rw [Cache.storeEntities]
  generalize v.entities = found
  induction found generalizing c with
  | nil => exact h
  | cons e rest ih => exact ih (h.mergeObject e.1 e.2)

theorem Indexed.writeObject {c : Cache} (h : c.Indexed) (v : Json) : (c.writeObject v).2.Indexed := by
  rw [Cache.writeObject]
  split
  · exact h.storeEntities v
  · exact h

theorem Indexed.writeRoot {c : Cache} (h : c.Indexed) (field : String) (args : Option Json)
    (data : Json) : (c.writeRoot field args data).Indexed :=
  (h.storeEntities data).of_sameStore ⟨rfl, rfl, rfl, rfl⟩

theorem Indexed.writeField {c : Cache} (h : c.Indexed) (obj : ObjectRef) (field : String) (v : Json) :
    (c.writeField obj field v).2.Indexed := by
  rw [Cache.writeField]
  split
  · have hset := sameRoot_applyToField (c.storeEntities v) obj field (.set v.normalized)
    exact (h.storeEntities v).of_same hset.2 (contains_applyToField _ obj field (.set v.normalized))
  · exact h

theorem Indexed.evictObject {c : Cache} (h : c.Indexed) (obj : ObjectRef) :
    (c.evictObject obj).2.Indexed := by
  have hids : ∀ id, (c.evictObject obj).2.objects.contains id = true ↔
      c.objects.contains id = true ∧ id ≠ obj.cacheId := by
    intro id
    by_cases hid : id = obj.cacheId <;> simp [SortedMap.contains, hid]
  by_cases hin : c.contains obj = true
  · have hindex : (c.evictObject obj).2.index = indexErase c.index obj.typename obj.cacheId := by
      rw [Cache.evictObject, if_pos hin]
    refine ⟨?_, ?_, ?_⟩
    · intro id hid
      exact h.keys id ((hids id).1 hid).1
    · intro t id
      rw [hindex, listed_indexErase, h.listed, hids]
      constructor
      · rintro ⟨⟨hid, key, hkey⟩, hne⟩
        refine ⟨⟨hid, ?_⟩, key, hkey⟩
        rintro rfl
        have := ObjectRef.cacheId_inj hkey
        subst this
        exact hne ⟨rfl, rfl⟩
      · -- An object under another id stays listed.
        rintro ⟨⟨hid, hne⟩, key, hkey⟩
        exact ⟨⟨hid, key, hkey⟩, fun he => hne he.2⟩
    · rw [hindex]
      exact nonempty_indexErase h.nonempty _ _
  · rw [Cache.evictObject, if_neg hin]
    exact h

theorem listed_collect_iff {c : Cache} (h : c.Indexed) (t : Typename) (id : String) :
    Listed c.collect.2.index t id ↔ Listed c.index t id ∧ c.Reaches id := by
  have hkeep : Listed c.index t id →
      (c.collect.1.removed.contains id = false ↔ c.Reaches id) := by
    intro hlisted
    have hin := ((h.listed t id).1 hlisted).1
    rw [List.contains_eq_mem, decide_eq_false_iff_not, mem_removed_iff]
    simp [hin]
  rw [Listed, index_collect]
  simp only [SortedMap.get?_filter, SortedMap.get?_mapValues]
  constructor
  · -- What is left in the list of a type was in it and is not removed.
    rintro ⟨ids, hids, hid⟩
    cases hold : c.index.get? t with
    | none => simp [hold] at hids
    | some old =>
      rw [hold, Option.map_some, Option.filter_some] at hids
      split at hids
      · cases hids
        rw [SortedMap.contains, SortedMap.get?_filter] at hid
        cases hu : SortedMap.get? old id with
        | none => simp [hu] at hid
        | some u =>
          have hlisted : Listed c.index t id := ⟨old, hold, by simp [SortedMap.contains, hu]⟩
          refine ⟨hlisted, (hkeep hlisted).1 ?_⟩
          simpa [hu, Option.filter_some] using hid
      · cases hids
  · -- The list of the type still has this id, so it is not dropped as empty.
    rintro ⟨hlisted, hreach⟩
    have hnot := (hkeep hlisted).2 hreach
    obtain ⟨old, hold, hid⟩ := hlisted
    obtain ⟨u, hu⟩ := Option.isSome_iff_exists.1 hid
    have hin : (old.filter fun id _ => !c.collect.1.removed.contains id).contains id = true := by
      rw [SortedMap.contains, SortedMap.get?_filter, hu, Option.filter_some, hnot]
      rfl
    refine ⟨_, ?_, hin⟩
    rw [hold, Option.map_some, Option.filter_some, (SortedMap.isEmpty_eq_false_iff _).2 ⟨id, hin⟩]
    rfl

theorem Indexed.collect {c : Cache} (h : c.Indexed) : c.collect.2.Indexed := by
  refine ⟨?_, ?_, ?_⟩
  · intro id hid
    exact h.keys id ((contains_collect_iff c id).1 hid).1
  · intro t id
    rw [listed_collect_iff h, h.listed, contains_collect_iff]
    constructor
    · rintro ⟨⟨hid, hkey⟩, hreach⟩
      exact ⟨⟨hid, hreach⟩, hkey⟩
    · rintro ⟨⟨hid, hreach⟩, hkey⟩
      exact ⟨⟨hid, hkey⟩, hreach⟩
  · intro t ids hids
    rw [index_collect, SortedMap.get?_filter, Option.filter_eq_some_iff] at hids
    exact (SortedMap.isEmpty_eq_false_iff _).1 (by simpa using hids.2)

end Cache

end MediaCache
