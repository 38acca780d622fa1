import MediaCache.Proofs.Store.ReadBack
import MediaCache.Proofs.Store.Rewrite
import MediaCache.Proofs.Store.Rows
import MediaCache.Proofs.Update.Results

/-!
# The record of a returned object

An object that a mutation returns need not name its type: it is stored under that of its family. Its
fields overwrite those of the record that was there.
-/

namespace MediaCache

theorem Json.entitiesOfFields_insert {fields : Json.Fields} {key : String} {v : Json}
    (hv : v.isScalar = true) :
    Json.entitiesOfFields (Assoc.insert key v fields) ⊆ Json.entitiesOfFields fields := by
  have hflat (fields : Json.Fields) :
      Json.entitiesOfFields fields = fields.flatMap fun m => m.2.entities := by
    induction fields with
    | nil => rfl
    | cons m rest ih => rw [Json.entitiesOfFields, ih, List.flatMap_cons]
  intro e he
  rw [hflat, List.mem_flatMap] at he ⊢
  obtain ⟨m, hm, he⟩ := he
  rcases Assoc.mem_insert hm with rfl | hold
  · rw [Json.entities_of_isScalar hv] at he
    cases he
  · exact ⟨m, hold, he⟩

/-- The returned object has the id of the row and says nothing else about its type. -/
structure Returns (fields : Json.Fields) (obj : ObjectRef) : Prop where
  id : (Assoc.get? "id" fields).bind idText? = some obj.id
  typename : ∀ t ∈ Assoc.get? "__typename" fields, t = .string obj.typename.name

namespace Returns

variable {fields : Json.Fields} {obj : ObjectRef}

/-- Whether it names its type or not, the object is stored under that of its family. -/
theorem typedResult_eq (h : Returns fields obj) (hfields : Assoc.Ordered fields) {subject : Subject}
    (hsubject : subject.typename? = some obj.typename) :
    typedResult subject fields =
      .object (Assoc.insert "__typename" (.string obj.typename.name) fields) := by
  have hid : Assoc.contains "id" fields = true := by
    obtain ⟨v, hv, -⟩ := Option.bind_eq_some_iff.1 h.id
    rw [Assoc.contains, hv]
    rfl
  rw [typedResult, hsubject]
  simp only [hid, Bool.true_and]
  cases ht : Assoc.get? "__typename" fields with
  | none => rw [Assoc.contains, ht]; rfl
  | some t =>
    have hsame : Assoc.insert "__typename" (.string obj.typename.name) fields = fields := by
      refine (hfields.insert _ _).ext hfields fun key => ?_
      by_cases hkey : key = "__typename"
      · rw [hkey, Assoc.get?_insert_self, ht, h.typename t ht]
      · exact Assoc.get?_insert_of_ne hkey _ _
    rw [hsame, Assoc.contains, ht]
    rfl

theorem identify? (h : Returns fields obj) : ObjectRef.identify?
    (.object (Assoc.insert "__typename" (.string obj.typename.name) fields)) = some obj := by
  obtain ⟨v, hv, hid⟩ := Option.bind_eq_some_iff.1 h.id
  refine ObjectRef.identify?_eq_some_iff.2 ⟨Assoc.get?_insert_self _ _ _, v, ?_, hid⟩
  rw [Assoc.get?_insert_of_ne (by decide), hv]

end Returns

namespace Cache

variable {obj : ObjectRef}

theorem get?_storeEntities_of_apart {c : Cache} {entities : List (ObjectRef × Json.Fields)}
    (h : ∀ e ∈ entities, e.1 ≠ obj) :
    (entities.foldl (fun c e => c.mergeObject e.1 e.2) c).get? obj = c.get? obj :=
  get?_objects_mergeAll_of_ne c fun e he hid => h e he (ObjectRef.cacheId_inj hid).symm

/-- An object is merged last, after the objects in it. -/
theorem get?_writeObject (c : Cache) {own : Json.Fields}
    (hobj : ObjectRef.identify? (.object own) = some obj) :
    (c.writeObject (.object own)).2.get? obj =
      some (((((Json.entitiesOfFields own).foldl (fun c e => c.mergeObject e.1 e.2) c).get? obj).getD
        (SortedMap.ofList [("__typename", .string obj.typename.name)])).insertAll
          (Json.normalizedFields own)) := by
  have hreference : referenceId? (.object own) = none := by
    cases hid : referenceId? (.object own) with
    | none => rfl
    | some id =>
      have hnone := Json.RowFree.of_referenceId? hid _ (Json.mem_parts_object.2 (.inl rfl))
      rw [hobj] at hnone
      cases hnone
  rw [writeObject, hobj]
  simp only [storeEntities, (Json.normalized_of_identified hreference hobj).2, List.foldl_append,
    List.foldl_cons, List.foldl_nil]
  exact SortedMap.get?_insert_self _ _ _

end Cache

namespace Returns

variable {fields : Json.Fields} {obj : ObjectRef} {subject : Subject}

theorem writeResult_eq (h : Returns fields obj) (hfields : Assoc.Ordered fields)
    (hsubject : subject.typename? = some obj.typename) (c : Cache) :
    c.writeResult subject (.object fields) =
      (c.writeObject (.object (Assoc.insert "__typename" (.string obj.typename.name) fields))).2 := by
  have hresult : c.writeResult subject (.object fields) =
      (c.writeObject (typedResult subject fields)).2 := rfl
  rw [hresult, h.typedResult_eq hfields hsubject]

theorem identify?_stored (h : Returns fields obj) (hfields : Assoc.Ordered fields)
    (hsubject : subject.typename? = some obj.typename) (c : Cache) :
    ∃ r, (c.writeResult subject (.object fields)).get? obj = some r ∧
      ObjectRef.identify? r.toJson = some obj := by
  have hnodup := (hfields.insert "__typename" (Json.string obj.typename.name)).nodup_keys
  rw [← Json.keys_normalizedFields] at hnodup
  rw [h.writeResult_eq hfields hsubject]
  exact ⟨_, c.get?_writeObject h.identify?, Record.identify?_insertAll hnodup h.identify?⟩

/-- The type comes first into a new record and last into the fields of a returned object. Either way the
record has it besides what was there and what was returned. -/
theorem get?_writeResult (h : Returns fields obj) (hfields : Assoc.Ordered fields)
    (hinner : ∀ e ∈ Json.entitiesOfFields fields, e.1 ≠ obj)
    (hsubject : subject.typename? = some obj.typename) (c : Cache) :
    (c.writeResult subject (.object fields)).get? obj =
      some ((((c.get? obj).getD ∅).insertAll (Json.normalizedFields fields)).insert "__typename"
        (.string obj.typename.name)) := by
  -- No inner object is the same row, so the outer one is merged into what was there.
  have hapart : ∀ e ∈ Json.entitiesOfFields (Assoc.insert "__typename" (.string obj.typename.name) fields),
      e.1 ≠ obj := fun e he => hinner e (Json.entitiesOfFields_insert rfl he)
  have hwritten := c.get?_writeObject h.identify?
  rw [Cache.get?_storeEntities_of_apart hapart] at hwritten
  rw [h.writeResult_eq hfields hsubject, hwritten]
  congr 1
  apply SortedMap.ext
  intro key
  have hnodup {fields : Json.Fields} (h : Assoc.Ordered fields) :
      ((Json.normalizedFields fields).map (·.1)).Nodup := by
    rw [Json.keys_normalizedFields]
    exact h.nodup_keys
  rw [SortedMap.get?_insert, Record.get?_insertAll_normalized (hnodup (hfields.insert _ _)),
    Record.get?_insertAll_normalized (hnodup hfields), Json.get?_normalizedFields,
    Json.get?_normalizedFields]
  split
  · rename_i hkey
    rw [hkey, Assoc.get?_insert_self]
    simp [Json.normalized]
  · -- In a new record the type stands first, where other keys do not see it.
    rename_i hkey
    rw [Assoc.get?_insert_of_ne hkey]
    cases c.get? obj with
    | some present => rfl
    | none =>
      congr 1
      exact Assoc.get?_cons_of_ne hkey _ _

end Returns

end MediaCache
