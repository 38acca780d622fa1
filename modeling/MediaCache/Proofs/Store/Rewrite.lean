import MediaCache.Proofs.Store.Index

/-!
# Writing twice is writing once

A write is a sequence of merges that the data alone determines. For each object it amounts to one merge
of all the fields written to it, in their order, so the last value of a field wins both times.
-/

namespace MediaCache

namespace Cache

/-- Merges the fields of objects in the order of a list. -/
def mergeAll (c : Cache) (entities : List (ObjectRef × Json.Fields)) : Cache :=
  entities.foldl (fun c e => c.mergeObject e.1 e.2) c

/-- What a list of merges writes to one object. -/
def fieldsFor (obj : ObjectRef) (entities : List (ObjectRef × Json.Fields)) : Json.Fields :=
  (entities.filter fun e => e.1 = obj).flatMap (·.2)

theorem fieldsFor_eq_nil {obj : ObjectRef} {entities : List (ObjectRef × Json.Fields)}
    (h : obj ∉ entities.map (·.1)) : fieldsFor obj entities = [] := by
  have hfilter : (entities.filter fun e => e.1 = obj) = [] := by
    rw [List.filter_eq_nil_iff]
    intro e he hobj
    exact h (List.mem_map.2 ⟨e, he, of_decide_eq_true hobj⟩)
  rw [fieldsFor, hfilter, List.flatMap_nil]

@[simp]
theorem fieldsFor_cons_self (obj : ObjectRef) (fields : Json.Fields)
    (rest : List (ObjectRef × Json.Fields)) :
    fieldsFor obj ((obj, fields) :: rest) = fields ++ fieldsFor obj rest := by
  simp [fieldsFor]

theorem fieldsFor_cons_of_ne {obj other : ObjectRef} (h : other ≠ obj) (fields : Json.Fields)
    (rest : List (ObjectRef × Json.Fields)) :
    fieldsFor obj ((other, fields) :: rest) = fieldsFor obj rest := by
  simp [fieldsFor, h]

/-! ## The objects -/

def present (c : Cache) (obj : ObjectRef) : Record :=
  (c.get? obj).getD (SortedMap.ofList [("__typename", .string obj.typename.name)])

/-- All merges into one object are a single one, wherever they stand among the others. -/
theorem get?_mergeAll (c : Cache) (entities : List (ObjectRef × Json.Fields)) (obj : ObjectRef) :
    (c.mergeAll entities).get? obj =
      if obj ∈ entities.map (·.1) then some ((c.present obj).insertAll (fieldsFor obj entities))
      else c.get? obj := by
  induction entities generalizing c with
  | nil => rfl
  | cons e rest ih =>
    obtain ⟨other, fields⟩ := e
    have hstep : c.mergeAll ((other, fields) :: rest) = (c.mergeObject other fields).mergeAll rest := rfl
    rw [hstep, ih]
    by_cases hobj : other = obj
    · -- This merge is into the object, so those to come start from what it leaves.
      subst hobj
      have hmerged : (c.mergeObject other fields).get? other =
          some ((c.present other).insertAll fields) := SortedMap.get?_insert_self _ _ _
      have hpresent : (c.mergeObject other fields).present other =
          (c.present other).insertAll fields := by
        rw [present, hmerged, Option.getD_some]
      have hmem : other ∈ ((other, fields) :: rest).map (·.1) := List.mem_cons_self
      rw [if_pos hmem, fieldsFor_cons_self, SortedMap.insertAll_append, hpresent, hmerged]
      split
      · rfl
      -- This was the last merge into the object.
      · rename_i hrest
        rw [fieldsFor_eq_nil hrest]
        rfl
    · have hmerged : (c.mergeObject other fields).get? obj = c.get? obj :=
        SortedMap.get?_insert_of_ne c.objects (fun hid => hobj (ObjectRef.cacheId_inj hid).symm) _
      have hmem : obj ∈ ((other, fields) :: rest).map (·.1) ↔ obj ∈ rest.map (·.1) := by
        simp [Ne.symm hobj]
      simp only [hmem, present, hmerged, fieldsFor_cons_of_ne hobj]

theorem get?_objects_mergeAll_of_ne (c : Cache) {entities : List (ObjectRef × Json.Fields)} {id : String}
    (h : ∀ e ∈ entities, id ≠ e.1.cacheId) :
    (c.mergeAll entities).objects.get? id = c.objects.get? id := by
  induction entities generalizing c with
  | nil => rfl
  | cons e rest ih =>
    obtain ⟨hfirst, hrest⟩ := List.forall_mem_cons.1 h
    exact (ih (c.mergeObject e.1 e.2) hrest).trans (SortedMap.get?_insert_of_ne c.objects hfirst _)

@[simp]
theorem objects_mergeAll_mergeAll (c : Cache) (entities : List (ObjectRef × Json.Fields)) :
    ((c.mergeAll entities).mergeAll entities).objects = (c.mergeAll entities).objects := by
  ext id : 1
  by_cases hid : ∃ e ∈ entities, id = e.1.cacheId
  · obtain ⟨e, he, rfl⟩ := hid
    have hmem : e.1 ∈ entities.map (·.1) := List.mem_map_of_mem he
    have hfirst : (c.mergeAll entities).get? e.1 =
        some ((c.present e.1).insertAll (fieldsFor e.1 entities)) := by
      rw [get?_mergeAll, if_pos hmem]
    have hsecond := get?_mergeAll (c.mergeAll entities) entities e.1
    rw [if_pos hmem, present, hfirst, Option.getD_some, SortedMap.insertAll_insertAll_self] at hsecond
    exact hsecond.trans hfirst.symm
  · exact get?_objects_mergeAll_of_ne _ fun e he heq => hid ⟨e, he, heq⟩

/-! ## The index -/

theorem indexAdd_of_listed {index : SortedMap Typename (SortedSet String)} {t : Typename} {id : String}
    (h : Listed index t id) : indexAdd index t id = index := by
  obtain ⟨ids, hids, hid⟩ := h
  have hadd : SortedSet.add ids id = ids := by
    ext j : 1
    rw [SortedSet.add, SortedMap.get?_insert]
    split
    · rename_i hj
      obtain ⟨u, hu⟩ := Option.isSome_iff_exists.1 hid
      rw [hj, hu]
    · rfl
  ext t' : 1
  rw [indexAdd, hids, Option.getD_some, hadd, SortedMap.get?_insert]
  split
  · rename_i ht
    rw [ht, hids]
  · rfl

theorem Listed.mergeAll {c : Cache} {t : Typename} {id : String} (h : Listed c.index t id)
    (entities : List (ObjectRef × Json.Fields)) : Listed (c.mergeAll entities).index t id := by
  induction entities generalizing c with
  | nil => exact h
  | cons e rest ih => exact ih ((listed_indexAdd c.index e.1.typename t e.1.cacheId id).2 (.inr h))

theorem listed_mergeAll (c : Cache) {entities : List (ObjectRef × Json.Fields)}
    {e : ObjectRef × Json.Fields} (he : e ∈ entities) :
    Listed (c.mergeAll entities).index e.1.typename e.1.cacheId := by
  induction entities generalizing c with
  | nil => cases he
  | cons f rest ih =>
    rcases List.mem_cons.1 he with rfl | hrest
    · exact Listed.mergeAll ((listed_indexAdd c.index _ _ _ _).2 (.inl ⟨rfl, rfl⟩)) rest
    · exact ih (c.mergeObject f.1 f.2) hrest

theorem index_mergeAll_of_listed {c : Cache} {entities : List (ObjectRef × Json.Fields)}
    (h : ∀ e ∈ entities, Listed c.index e.1.typename e.1.cacheId) :
    (c.mergeAll entities).index = c.index := by
  induction entities generalizing c with
  | nil => rfl
  | cons e rest ih =>
    obtain ⟨hfirst, hrest⟩ := List.forall_mem_cons.1 h
    have hsame : (c.mergeObject e.1 e.2).index = c.index := indexAdd_of_listed hfirst
    exact (ih (c := c.mergeObject e.1 e.2) (hsame ▸ hrest)).trans hsame

/-! ## Whole writes -/

@[simp]
theorem storeEntities_storeEntities (c : Cache) (v : Json) :
    (c.storeEntities v).storeEntities v = c.storeEntities v := by
  have hroot := sameRoot_storeEntities (c.storeEntities v) v
  have hobjects : ((c.storeEntities v).storeEntities v).objects = (c.storeEntities v).objects :=
    objects_mergeAll_mergeAll c v.entities
  have hindex : ((c.storeEntities v).storeEntities v).index = (c.storeEntities v).index :=
    index_mergeAll_of_listed fun e he => listed_mergeAll c he
  exact hroot.eq_of_objects hobjects hindex

theorem storeEntities_withEntries (c : Cache) (v : Json) (root : Record)
    (selections : SortedMap String Shape) :
    ({ c with root := root, selections := selections } : Cache).storeEntities v =
      { c.storeEntities v with root := root, selections := selections } := by
  rw [storeEntities, storeEntities]
  induction v.entities generalizing c with
  | nil => rfl
  | cons e rest ih => exact ih (c.mergeObject e.1 e.2)

/-- A second write of the same data changes nothing at all, whatever the cache held before and however
often and with whatever fields an object occurs in the data. What the entry holds, and which object is
returned, is up to the data alone. -/
theorem write_idempotent (c : Cache) :
    (∀ field args data,
      (c.writeRoot field args data).writeRoot field args data = c.writeRoot field args data ∧
      ∀ d : Cache, (d.writeRoot field args data).root.get? (storeFieldName field args) =
        some data.normalized) ∧
    ∀ v, (c.writeObject v).2.writeObject v = c.writeObject v ∧
      ∀ d : Cache, (d.writeObject v).1 = ObjectRef.identify? v := by
  refine ⟨fun field args data => ⟨?_, fun d => SortedMap.get?_insert_self _ _ _⟩,
    fun v => ⟨?_, fun d => ?_⟩⟩
  · have hagain : (c.writeRoot field args data).storeEntities data = c.writeRoot field args data := by
      rw [writeRoot, storeEntities_withEntries, storeEntities_storeEntities]
    rw [writeRoot, hagain]
    simp only [writeRoot, SortedMap.insert_insert_self]
  · cases hobj : ObjectRef.identify? v with
    | none => simp only [writeObject, hobj]
    | some obj => simp only [writeObject, hobj, storeEntities_storeEntities]
  · rw [writeObject]
    split <;> simp only [*]

def tagCalled (name : String) (more : Json.Fields) : Json :=
  .object ([("__typename", .string "Tag"), ("id", .string "1"), ("name", .string name)] ++ more)

/-- A tag inside itself is written first under its inner name, and both times ends with the outer one. -/
example :
    let before := ((new .standard).writeObject (tagCalled "old" [("aliases", .array [])])).2
    let data := tagCalled "outer" [("parents", .array [tagCalled "inner" []])]
    let once := (before.writeObject data).2
    once.get? ⟨.tag, "1"⟩ = some (.ofList [("__typename", .string "Tag"), ("aliases", .array []),
      ("id", .string "1"), ("name", .string "outer"), ("parents", .array [reference "Tag:1"])]) ∧
    (once.writeObject data).2.objects = once.objects ∧ once.objects ≠ before.objects := by
  decide +kernel

end Cache

end MediaCache
