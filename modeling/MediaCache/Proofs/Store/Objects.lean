import MediaCache.Proofs.Store.Reference
import MediaCache.Proofs.Store.RootEntries

/-!
# Stored objects field by field

A change of a field reaches that field of that object only, and never makes an object appear or
disappear. Merging and evicting objects leave the root alone.
-/

namespace MediaCache

/-! ## Records -/

namespace Record

def without (r : Record) (dropped : String → Bool) : Record := r.filter fun k _ => !dropped k

@[simp]
theorem get?_without (r : Record) (dropped : String → Bool) (k : String) :
    (r.without dropped).get? k = if dropped k then none else r.get? k := by
  rw [without, SortedMap.get?_filter]
  cases h : dropped k <;> cases r.get? k <;> simp [Option.filter]

theorem without_without (r : Record) (p q : String → Bool) :
    (r.without p).without q = r.without fun k => q k || p k := by
  apply SortedMap.ext
  intro k
  cases hp : p k <;> cases hq : q k <;> simp [hp, hq]

@[simp]
theorem without_nothing (r : Record) : r.without (fun _ => false) = r := by
  apply SortedMap.ext
  intro k
  simp

theorem erase_eq_without (r : Record) (field : String) : r.erase field = r.without (· == field) := by
  apply SortedMap.ext
  intro k
  by_cases h : k = field <;> simp [h]

end Record

def FieldUpdate.onValue : FieldUpdate → Json → Option Json
  | .keep, v => some v
  | .set w, _ => some w
  | .delete, _ => none

namespace Cache

/-! ## One field -/

theorem get?_eq (c : Cache) (obj : ObjectRef) : c.get? obj = c.objects.get? obj.cacheId := rfl

theorem contains_eq (c : Cache) (obj : ObjectRef) :
    c.contains obj = c.objects.contains obj.cacheId := rfl

theorem SameStore.contains {c d : Cache} (h : SameStore c d) (obj : ObjectRef) :
    d.contains obj = c.contains obj := by
  rw [contains_eq, contains_eq, h.objects]

theorem SameStore.fieldValue? {c d : Cache} (h : SameStore c d) (obj : ObjectRef) (field : String) :
    d.fieldValue? obj field = c.fieldValue? obj field := by
  rw [Cache.fieldValue?, Cache.fieldValue?, get?_eq, get?_eq, h.objects]

theorem contains_of_fieldValue? {c : Cache} {obj : ObjectRef} {field : String} {v : Json}
    (h : c.fieldValue? obj field = some v) : c.contains obj = true := by
  rw [fieldValue?] at h
  cases hr : c.get? obj with
  | none =>
    rw [hr] at h
    cases h
  | some r =>
    rw [contains_eq, SortedMap.contains, ← get?_eq, hr]
    rfl

theorem sameRoot_applyToField (c : Cache) (obj : ObjectRef) (field : String) (u : FieldUpdate) :
    SameRoot c (c.applyToField obj field u) ∧ (c.applyToField obj field u).index = c.index := by
  cases u with
  | keep => exact ⟨SameRoot.refl c, rfl⟩
  | set v =>
    rw [applyToField, setField]
    split <;> exact ⟨⟨rfl, rfl, rfl, rfl⟩, rfl⟩
  | delete =>
    rw [applyToField]
    split <;> exact ⟨⟨rfl, rfl, rfl, rfl⟩, rfl⟩

theorem get?_applyToField (c : Cache) (obj : ObjectRef) (field : String) (u : FieldUpdate)
    (id : String) :
    (c.applyToField obj field u).objects.get? id =
      (c.objects.get? id).map fun r =>
        if id = obj.cacheId then
          match u with
          | .keep => r
          | .set v => r.insert field v
          | .delete => r.erase field
        else r := by
  by_cases h : id = obj.cacheId
  · subst h
    cases u with
    | keep => simp [applyToField]
    | set v => cases hr : c.objects.get? obj.cacheId <;> simp [applyToField, setField, get?_eq, hr]
    | delete => cases hr : c.objects.get? obj.cacheId <;> simp [applyToField, get?_eq, hr]
  · cases u with
    | keep => simp [applyToField]
    | set v => cases hr : c.objects.get? obj.cacheId <;>
        simp [applyToField, setField, get?_eq, hr, h]
    | delete => cases hr : c.objects.get? obj.cacheId <;>
        simp [applyToField, get?_eq, hr, h]

@[simp]
theorem contains_applyToField (c : Cache) (obj : ObjectRef) (field : String) (u : FieldUpdate)
    (id : String) :
    (c.applyToField obj field u).objects.contains id = c.objects.contains id := by
  rw [SortedMap.contains, get?_applyToField, Option.isSome_map, SortedMap.contains]

theorem fieldValue?_applyToField_self (c : Cache) (obj : ObjectRef) (field : String)
    (u : FieldUpdate) {v : Json} (h : c.fieldValue? obj field = some v) :
    (c.applyToField obj field u).fieldValue? obj field = u.onValue v := by
  rw [fieldValue?, get?_eq] at h ⊢
  rw [get?_applyToField]
  cases hr : c.objects.get? obj.cacheId with
  | none =>
    rw [hr] at h
    cases h
  | some r =>
    rw [hr] at h
    cases u with
    | keep => simpa [FieldUpdate.onValue] using h
    | set w => simp [FieldUpdate.onValue]
    | delete => simp [FieldUpdate.onValue]

theorem fieldValue?_applyToField_of_ne (c : Cache) {obj o : ObjectRef} {field f : String}
    (u : FieldUpdate) (h : ¬(o = obj ∧ f = field)) :
    (c.applyToField obj field u).fieldValue? o f = c.fieldValue? o f := by
  rw [fieldValue?, fieldValue?, get?_eq, get?_eq, get?_applyToField]
  cases c.objects.get? o.cacheId with
  | none => rfl
  | some r =>
    by_cases ho : o = obj
    · subst ho
      have hf : f ≠ field := fun hf => h ⟨rfl, hf⟩
      cases u <;> simp [hf]
    · simp [ho]

/-! ## Changing a field -/

theorem applyToField_eq_modifyField {c : Cache} {obj : ObjectRef} {field : String} {v : Json}
    (h : c.fieldValue? obj field = some v) (u : FieldUpdate) :
    c.applyToField obj field u = (c.modifyField obj field fun _ => u).2 := by
  unfold modifyField
  rw [h]

theorem sameRoot_modifyField (c : Cache) (obj : ObjectRef) (field : String)
    (change : Json → FieldUpdate) :
    SameRoot c (c.modifyField obj field change).2 ∧
      (c.modifyField obj field change).2.index = c.index := by
  rw [modifyField]
  split
  · exact ⟨SameRoot.refl c, rfl⟩
  · exact sameRoot_applyToField c obj field _

@[simp]
theorem contains_modifyField (c : Cache) (obj : ObjectRef) (field : String)
    (change : Json → FieldUpdate) (id : String) :
    (c.modifyField obj field change).2.objects.contains id = c.objects.contains id := by
  rw [modifyField]
  split
  · rfl
  · exact contains_applyToField c obj field _ id

theorem fieldValue?_modifyField_of_ne (c : Cache) {obj o : ObjectRef} {field f : String}
    (change : Json → FieldUpdate) (h : ¬(o = obj ∧ f = field)) :
    (c.modifyField obj field change).2.fieldValue? o f = c.fieldValue? o f := by
  rw [modifyField]
  split
  · rfl
  · exact fieldValue?_applyToField_of_ne c _ h

/-! ## Merging -/

theorem sameRoot_storeEntities (c : Cache) (v : Json) : SameRoot c (c.storeEntities v) := by
  rw [storeEntities]
  induction v.entities generalizing c with
  | nil => exact SameRoot.refl c
  | cons e rest ih =>
    have hmerged : SameRoot c (c.mergeObject e.1 e.2) := ⟨rfl, rfl, rfl, rfl⟩
    exact hmerged.trans (ih _)

theorem sameRoot_writeObject (c : Cache) (v : Json) : SameRoot c (c.writeObject v).2 := by
  rw [writeObject]
  split
  · exact sameRoot_storeEntities c v
  · exact SameRoot.refl c

/-! ## Evicting -/

@[simp]
theorem get?_evictField (c : Cache) (obj : ObjectRef) (field id : String) :
    (c.evictField obj field).2.objects.get? id =
      (c.objects.get? id).map (·.without fun k => id == obj.cacheId && k == field) := by
  have hid : id ≠ obj.cacheId → ∀ r : Record, r.without (fun k => id == obj.cacheId && k == field) = r := by
    intro h r
    simp [beq_eq_false_iff_ne.2 h]
  rw [evictField, modifyField]
  cases hv : c.fieldValue? obj field with
  | some v =>
    simp only [get?_applyToField]
    by_cases h : id = obj.cacheId
    · subst h
      simp [Record.erase_eq_without]
    · simp [h, hid h]
  | none =>
    by_cases h : id = obj.cacheId
    · subst h
      rw [fieldValue?, get?_eq] at hv
      cases hr : c.objects.get? obj.cacheId with
      | none => simp
      | some r =>
        -- The field is not there, so nothing is dropped.
        have hr' : r.without (fun k => k == field) = r := by
          apply SortedMap.ext
          intro k
          by_cases hk : k = field
          · subst hk
            simpa [hr] using hv.symm
          · simp [hk]
        simp [hr']
    · -- Another object.
      cases c.objects.get? id with
      | none => simp
      | some r => simp [hid h]

@[simp]
theorem get?_evictObject (c : Cache) (obj : ObjectRef) (id : String) :
    (c.evictObject obj).2.objects.get? id = if id = obj.cacheId then none else c.objects.get? id := by
  rw [evictObject]
  split
  · exact SortedMap.get?_erase c.objects id obj.cacheId
  · rename_i h
    split
    · rename_i hid
      subst hid
      rw [contains_eq, SortedMap.contains] at h
      simpa using h
    · rfl

theorem sameRoot_evictObject (c : Cache) (obj : ObjectRef) : SameRoot c (c.evictObject obj).2 := by
  rw [evictObject]
  split <;> exact ⟨rfl, rfl, rfl, rfl⟩

end Cache

end MediaCache
