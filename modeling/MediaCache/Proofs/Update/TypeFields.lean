import MediaCache.Proofs.Data.SortedMap
import MediaCache.Update.TypeFields

/-!
# What fields by type cover

Rows, sums and unions are described by the fields they cover.
-/

namespace MediaCache

namespace TypeFields

theorem covers_iff (fields : TypeFields) (t : Typename) (name : String) :
    fields.covers t name = true ↔ ∃ names, fields.get? t = some names ∧ names.contains name = true := by
  rw [covers]
  cases fields.get? t <;> simp

theorem covers_add (fields : TypeFields) (t u : Typename) (names : List String) (name : String) :
    (fields.add t names).covers u name = true ↔
      (u = t ∧ name ∈ names) ∨ fields.covers u name = true := by
  rw [covers_iff, covers_iff, add, SortedMap.get?_insert]
  by_cases h : u = t
  · subst h
    simp only [if_true, Option.some.injEq, exists_eq_left', SortedSet.contains_addAll, true_and]
    cases fields.get? u with
    | none => simp [SortedMap.contains]
    | some old => simp
  · simp [h]

theorem covers_foldl_add (rows : List (Typename × List String)) (fields : TypeFields)
    (t : Typename) (name : String) :
    (rows.foldl (fun fields row => fields.add row.1 row.2) fields).covers t name = true ↔
      (∃ row ∈ rows, row.1 = t ∧ name ∈ row.2) ∨ fields.covers t name = true := by
  induction rows generalizing fields with
  | nil => simp
  | cons row rest ih =>
    rw [List.foldl_cons, ih, covers_add]
    constructor
    · rintro (⟨r, hr, hrow⟩ | ⟨rfl, hname⟩ | hold)
      · exact .inl ⟨r, List.mem_cons_of_mem _ hr, hrow⟩
      · exact .inl ⟨row, List.mem_cons_self, rfl, hname⟩
      · exact .inr hold
    · rintro (⟨r, hr, rfl, hname⟩ | hold)
      · rcases List.mem_cons.1 hr with rfl | hr
        · exact .inr (.inl ⟨rfl, hname⟩)
        · exact .inl ⟨r, hr, rfl, hname⟩
      · exact .inr (.inr hold)

theorem covers_ofRows (rows : List (Typename × List String)) (t : Typename) (name : String) :
    (ofRows rows).covers t name = true ↔ ∃ row ∈ rows, row.1 = t ∧ name ∈ row.2 := by
  have hnone : covers ∅ t name = false := rfl
  rw [ofRows, covers_foldl_add, hnone]
  simp

theorem mem_rows_iff (fields : TypeFields) (t : Typename) (names : List String) :
    (t, names) ∈ fields.rows ↔ ∃ set, fields.get? t = some set ∧ set.toList = names := by
  rw [rows, List.mem_map]
  constructor
  · rintro ⟨⟨u, set⟩, hmem, he⟩
    cases he
    exact ⟨set, (fields.get?_eq_some_iff_mem _ set).2 hmem, rfl⟩
  · rintro ⟨set, hget, rfl⟩
    exact ⟨(t, set), (fields.get?_eq_some_iff_mem t set).1 hget, rfl⟩

/-- The rows name exactly the fields that are covered. -/
theorem covers_iff_rows (fields : TypeFields) (t : Typename) (name : String) :
    fields.covers t name = true ↔ ∃ row ∈ fields.rows, row.1 = t ∧ name ∈ row.2 := by
  rw [covers_iff]
  constructor
  · rintro ⟨set, hget, hname⟩
    exact ⟨(t, set.toList), (mem_rows_iff fields t _).2 ⟨set, hget, rfl⟩, rfl,
      (SortedSet.mem_toList set name).2 hname⟩
  · rintro ⟨⟨u, names⟩, hmem, rfl, hname⟩
    obtain ⟨set, hget, rfl⟩ := (mem_rows_iff fields u names).1 hmem
    exact ⟨set, hget, (SortedSet.mem_toList set name).1 hname⟩

theorem covers_union (a b : TypeFields) (t : Typename) (name : String) :
    (a.union b).covers t name = true ↔ b.covers t name = true ∨ a.covers t name = true := by
  have hrows : a.union b = b.rows.foldl (fun fields row => fields.add row.1 row.2) a := by
    rw [rows, List.foldl_map]
    rfl
  rw [hrows, covers_foldl_add, ← covers_iff_rows]

end TypeFields

end MediaCache
