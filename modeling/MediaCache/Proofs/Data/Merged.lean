import MediaCache.Proofs.Data.SortedMap

/-!
# Maps merged entry by entry

A key of one of two maps keeps its value, and for a key of both a function joins the two values. Which
entries the merged map has is clear from look-ups alone.
-/

namespace MediaCache.Assoc

variable {α β : Type} [Ord α] {f : β → β → β}

/-- Writes the entries one by one. Where a key has a value, the new value is joined to it. -/
def mergeWith (f : β → β → β) (l : List (α × β)) : List (α × β) → List (α × β)
  | [] => l
  | (k, v) :: rest =>
    let joined :=
      match get? k l with
      | some w => f w v
      | none => v
    mergeWith f (insert k joined l) rest

theorem get?_mergeWith [Std.LawfulEqOrd α] (l : List (α × β)) {entries : List (α × β)}
    (h : (entries.map (·.1)).Nodup) (k : α) :
    get? k (mergeWith f l entries) = (get? k l).merge f (get? k entries) := by
  induction entries generalizing l with
  | nil => rw [mergeWith, get?, Option.merge_none_right]
  | cons e rest ih =>
    obtain ⟨j, v⟩ := e
    rw [List.map_cons, List.nodup_cons] at h
    rw [mergeWith, ih _ h.2]
    by_cases hkey : k = j
    · -- The key does not come again, so what is joined here stays.
      subst hkey
      rw [get?_insert_self, get?_cons_self, get?_eq_none_iff.2 h.1, Option.merge_none_right]
      cases get? k l <;> rfl
    · rw [get?_insert_of_ne hkey, get?_cons_of_ne hkey]

theorem Ordered.mergeWith [Std.TransOrd α] (f : β → β → β) {l : List (α × β)} (h : Ordered l)
    (entries : List (α × β)) : Ordered (Assoc.mergeWith f l entries) := by
  induction entries generalizing l with
  | nil => exact h
  | cons e rest ih =>
    obtain ⟨k, v⟩ := e
    rw [Assoc.mergeWith]
    exact ih (h.insert k _)

theorem mem_keys_mergeWith [Std.LawfulEqOrd α] (l : List (α × β)) {entries : List (α × β)}
    (h : (entries.map (·.1)).Nodup) (k : α) :
    k ∈ (mergeWith f l entries).map (·.1) ↔ k ∈ l.map (·.1) ∨ k ∈ entries.map (·.1) := by
  rw [← get?_isSome_iff, ← get?_isSome_iff, ← get?_isSome_iff, get?_mergeWith l h,
    Option.isSome_merge, Bool.or_eq_true]

theorem mergeWith_nil_left [Std.TransOrd α] [Std.LawfulEqOrd α] {entries : List (α × β)}
    (h : Ordered entries) : mergeWith f [] entries = entries := by
  apply (ordered_nil.mergeWith f entries).ext h
  intro k
  rw [get?_mergeWith [] h.nodup_keys, get?, Option.merge_none_left]

end MediaCache.Assoc
