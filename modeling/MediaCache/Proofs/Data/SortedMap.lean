import Mathlib.Data.List.Nodup
import MediaCache.Data.SortedMap

/-!
# More laws of ordered maps

In a list with ascending keys the entries are exactly what look-ups show. From this the laws of
filtering, of writing many entries and of the list of keys follow.
-/

namespace MediaCache

variable {α β γ : Type} [Ord α]

namespace Assoc

theorem compare_ne_eq [Std.LawfulEqOrd α] {j k : α} (h : j ≠ k) : compare j k ≠ .eq :=
  fun he => h (Std.LawfulEqCmp.eq_of_compare he)

@[simp]
theorem get?_cons_self [Std.LawfulEqOrd α] (k : α) (v : β) (l : List (α × β)) :
    get? k ((k, v) :: l) = some v := by
  simp [get?]

theorem get?_cons_of_ne [Std.LawfulEqOrd α] {j k : α} (h : j ≠ k) (v : β) (l : List (α × β)) :
    get? j ((k, v) :: l) = get? j l := by
  rw [get?]
  split
  · rename_i he
    exact absurd he (compare_ne_eq h)
  · rfl

@[simp]
theorem get?_append [Std.LawfulEqOrd α] (k : α) (l m : List (α × β)) :
    get? k (l ++ m) = (get? k l).or (get? k m) := by
  induction l with
  | nil => rfl
  | cons e l ih =>
    obtain ⟨j, v⟩ := e
    rw [List.cons_append]
    by_cases h : k = j
    · subst h
      rw [get?_cons_self, get?_cons_self, Option.some_or]
    · rw [get?_cons_of_ne h, get?_cons_of_ne h, ih]

theorem mem_of_get? [Std.LawfulEqOrd α] {k : α} {v : β} {l : List (α × β)} (h : get? k l = some v) :
    (k, v) ∈ l := by
  induction l with
  | nil => simp [get?] at h
  | cons e l ih =>
    obtain ⟨j, w⟩ := e
    by_cases hj : k = j
    · subst hj
      rw [get?_cons_self] at h
      simp at h
      simp [h]
    · rw [get?_cons_of_ne hj] at h
      exact List.mem_cons_of_mem _ (ih h)

theorem get?_eq_none_iff [Std.LawfulEqOrd α] {k : α} {l : List (α × β)} :
    get? k l = none ↔ k ∉ l.map (·.1) := by
  induction l with
  | nil => simp [get?]
  | cons e l ih =>
    obtain ⟨j, w⟩ := e
    by_cases hj : k = j
    · subst hj
      simp
    · rw [get?_cons_of_ne hj, ih]
      simp [hj]

theorem get?_isSome_iff [Std.LawfulEqOrd α] {k : α} {l : List (α × β)} :
    (get? k l).isSome = true ↔ k ∈ l.map (·.1) := by
  rw [← Option.ne_none_iff_isSome, ne_eq, get?_eq_none_iff, not_not]

theorem get?_map_keyed [Std.LawfulEqOrd α] (f : α → β → γ) (k : α) (l : List (α × β)) :
    get? k (l.map fun e => (e.1, f e.1 e.2)) = (get? k l).map (f k) := by
  induction l with
  | nil => rfl
  | cons e l ih =>
    obtain ⟨j, v⟩ := e
    rw [List.map_cons]
    by_cases h : k = j
    · subst h
      rw [get?_cons_self, get?_cons_self, Option.map_some]
    · rw [get?_cons_of_ne h, get?_cons_of_ne h, ih]

/-! ## Lists in order -/

theorem Ordered.nodup_keys [Std.LawfulEqOrd α] {l : List (α × β)} (h : Ordered l) :
    (l.map (·.1)).Nodup := by
  rw [List.Nodup, List.pairwise_map]
  refine List.Pairwise.imp ?_ h
  intro a b hlt he
  rw [he] at hlt
  simp at hlt

theorem Ordered.mem_before_iff [Std.TransOrd α] {before after : List (α × β)} {e f : α × β}
    (h : Ordered (before ++ e :: after)) (hf : f ∈ before ++ e :: after) :
    f ∈ before ↔ compare f.1 e.1 = .lt := by
  obtain ⟨-, hrest, hacross⟩ := List.pairwise_append.1 h
  constructor
  · intro hbefore
    exact hacross f hbefore e List.mem_cons_self
  · intro hlt
    rcases List.mem_append.1 hf with hbefore | hfrom
    · exact hbefore
    rcases List.mem_cons.1 hfrom with rfl | hafter
    · simp at hlt
    · have hgt := Std.OrientedCmp.gt_iff_lt.2 ((List.pairwise_cons.1 hrest).1 f hafter)
      rw [hlt] at hgt
      cases hgt

theorem get?_eq_of_mem [Std.LawfulEqOrd α] {k : α} {v : β} {l : List (α × β)}
    (hl : (l.map (·.1)).Nodup) (h : (k, v) ∈ l) : get? k l = some v := by
  induction l with
  | nil => simp at h
  | cons e l ih =>
    obtain ⟨j, w⟩ := e
    rw [List.map_cons, List.nodup_cons] at hl
    rcases List.mem_cons.1 h with he | hmem
    · cases he
      exact get?_cons_self k v l
    · have hne : k ≠ j := by
        rintro rfl
        exact hl.1 (List.mem_map.2 ⟨(k, v), hmem, rfl⟩)
      rw [get?_cons_of_ne hne]
      exact ih hl.2 hmem

theorem Ordered.get?_eq_some_iff [Std.LawfulEqOrd α] {k : α} {v : β} {l : List (α × β)}
    (h : Ordered l) : get? k l = some v ↔ (k, v) ∈ l :=
  ⟨mem_of_get?, get?_eq_of_mem h.nodup_keys⟩

theorem Ordered.get?_filter [Std.LawfulEqOrd α] {l : List (α × β)} (h : Ordered l)
    (p : α × β → Bool) (k : α) : get? k (l.filter p) = (get? k l).filter fun v => p (k, v) := by
  apply Option.ext
  intro v
  rw [(h.filter p).get?_eq_some_iff, List.mem_filter, Option.filter_eq_some_iff,
    h.get?_eq_some_iff]

/-- Where keys do not repeat, their order does not matter. -/
theorem get?_of_perm [Std.LawfulEqOrd α] {l m : List (α × β)} (hl : (l.map (·.1)).Nodup)
    (h : m.Perm l) (k : α) : get? k m = get? k l := by
  have hm : (m.map (·.1)).Nodup := (h.map _).nodup_iff.2 hl
  apply Option.ext
  intro v
  constructor
  · intro hget
    exact get?_eq_of_mem hl (h.mem_iff.1 (mem_of_get? hget))
  · intro hget
    exact get?_eq_of_mem hm (h.mem_iff.2 (mem_of_get? hget))

theorem get?_reverse [Std.LawfulEqOrd α] {l : List (α × β)} (hl : (l.map (·.1)).Nodup) (k : α) :
    get? k l.reverse = get? k l :=
  get?_of_perm hl (List.reverse_perm l) k

theorem get?_reverse_cons [Std.LawfulEqOrd α] [DecidableEq α] (j k : α) (v : β) (rest : List (α × β)) :
    get? j ((k, v) :: rest).reverse = (get? j rest.reverse).or (if j = k then some v else none) := by
  rw [List.reverse_cons, get?_append]
  split
  · rename_i heq
    rw [heq, get?_cons_self]
  · rename_i hne
    rw [get?_cons_of_ne hne]
    rfl

/-! ## Writing -/

/-- The last of the entries with a key wins. -/
theorem get?_insertAll [Std.LawfulEqOrd α] (k : α) (entries l : List (α × β)) :
    get? k (insertAll entries l) = (get? k entries.reverse).or (get? k l) := by
  induction entries generalizing l with
  | nil => rfl
  | cons e rest ih =>
    obtain ⟨j, v⟩ := e
    have hstep : insertAll ((j, v) :: rest) l = insertAll rest (insert j v l) := rfl
    rw [hstep, ih, List.reverse_cons, get?_append, Option.or_assoc]
    by_cases h : k = j
    · subst h
      rw [get?_insert_self, get?_cons_self, Option.some_or]
    · rw [get?_insert_of_ne h, get?_cons_of_ne h]
      rfl

theorem Ordered.ofList_of_perm [Std.TransOrd α] [Std.LawfulEqOrd α] {l m : List (α × β)} (h : Ordered l)
    (hperm : m.Perm l) : ofList m = l := by
  refine (ordered_ofList m).ext h fun k => ?_
  rw [ofList, get?_insertAll, get?_of_perm h.nodup_keys ((List.reverse_perm m).trans hperm), get?,
    Option.or_none]

theorem Ordered.ofList_eq [Std.TransOrd α] [Std.LawfulEqOrd α] {l : List (α × β)} (h : Ordered l) :
    ofList l = l :=
  h.ofList_of_perm (List.Perm.refl l)

theorem insert_insert_self [Std.TransOrd α] [Std.LawfulEqOrd α] (k : α) (v w : β)
    (l : List (α × β)) : insert k v (insert k w l) = insert k v l := by
  induction l with
  | nil => simp [insert]
  | cons e l ih =>
    obtain ⟨j, u⟩ := e
    cases h : compare k j <;> simp [insert, h, ih]

theorem insert_comm_of_lt [Std.TransOrd α] {j k : α} (h : compare j k = .lt) (v w : β)
    (l : List (α × β)) : insert j v (insert k w l) = insert k w (insert j v l) := by
  have hgt : compare k j = .gt := Std.OrientedCmp.gt_iff_lt.2 h
  induction l with
  | nil => simp [insert, h, hgt]
  | cons e l ih =>
    obtain ⟨i, u⟩ := e
    cases hj : compare j i with
    | lt => cases hk : compare k i <;> simp [insert, hj, hk, h, hgt]
    | eq =>
      have hk : compare k i = .gt := by
        rw [← Std.TransCmp.congr_right hj]
        exact hgt
      simp [insert, hj, hk, hgt]
    | gt =>
      have hk : compare k i = .gt :=
        Std.OrientedCmp.gt_iff_lt.2 (Std.TransCmp.lt_trans (Std.OrientedCmp.gt_iff_lt.1 hj) h)
      simp [insert, hj, hk, ih]

theorem insert_comm [Std.TransOrd α] [Std.LawfulEqOrd α] {j k : α} (h : j ≠ k) (v w : β)
    (l : List (α × β)) : insert j v (insert k w l) = insert k w (insert j v l) := by
  cases hc : compare j k with
  | lt => exact insert_comm_of_lt hc v w l
  | eq => exact absurd hc (compare_ne_eq h)
  | gt => exact (insert_comm_of_lt (Std.OrientedCmp.gt_iff_lt.1 hc) w v l).symm

end Assoc

namespace SortedMap

variable [Std.LawfulEqOrd α]

theorem contains_iff_mem_keys (m : SortedMap α β) (k : α) : m.contains k = true ↔ k ∈ m.keys :=
  Assoc.get?_isSome_iff

theorem nodup_keys (m : SortedMap α β) : m.keys.Nodup := m.ordered.nodup_keys

theorem get?_eq_some_iff_mem (m : SortedMap α β) (k : α) (v : β) :
    m.get? k = some v ↔ (k, v) ∈ m.entries := m.ordered.get?_eq_some_iff

@[simp]
theorem get?_filter (m : SortedMap α β) (p : α → β → Bool) (k : α) :
    (m.filter p).get? k = (m.get? k).filter (p k) := m.ordered.get?_filter _ k

omit [Std.LawfulEqOrd α] in
@[simp]
theorem get?_mapValues (m : SortedMap α β) (f : β → γ) (k : α) :
    (m.mapValues f).get? k = (m.get? k).map f := Assoc.get?_mapValues f k _

theorem isEmpty_eq_false_iff (m : SortedMap α β) : m.isEmpty = false ↔ ∃ k, m.contains k = true := by
  rw [isEmpty, List.isEmpty_eq_false_iff_exists_mem]
  constructor
  · rintro ⟨⟨k, v⟩, h⟩
    refine ⟨k, ?_⟩
    rw [contains, (m.get?_eq_some_iff_mem k v).2 h]
    rfl
  · rintro ⟨k, h⟩
    obtain ⟨v, hv⟩ := Option.isSome_iff_exists.1 h
    exact ⟨(k, v), (m.get?_eq_some_iff_mem k v).1 hv⟩

@[simp]
theorem get?_erase [DecidableEq α] (m : SortedMap α β) (j k : α) :
    (m.erase k).get? j = if j = k then none else m.get? j := by
  split
  · rename_i h
    rw [h, get?_erase_self]
  · rename_i h
    exact get?_erase_of_ne m h

variable [Std.TransOrd α]

@[simp]
theorem get?_insert [DecidableEq α] (m : SortedMap α β) (j k : α) (v : β) :
    (m.insert k v).get? j = if j = k then some v else m.get? j := by
  split
  · rename_i h
    rw [h, get?_insert_self]
  · rename_i h
    exact get?_insert_of_ne m h v

@[simp]
theorem get?_insertAll (m : SortedMap α β) (entries : List (α × β)) (k : α) :
    (m.insertAll entries).get? k = (Assoc.get? k entries.reverse).or (m.get? k) :=
  Assoc.get?_insertAll k entries m.entries

@[simp]
theorem insert_insert_self (m : SortedMap α β) (k : α) (v w : β) :
    (m.insert k w).insert k v = m.insert k v :=
  ext fun j => congrArg (Assoc.get? j) (Assoc.insert_insert_self k v w m.entries)

theorem insertAll_append (m : SortedMap α β) (first second : List (α × β)) :
    m.insertAll (first ++ second) = (m.insertAll first).insertAll second := by
  ext k : 1
  rw [get?_insertAll, get?_insertAll, get?_insertAll, List.reverse_append, Assoc.get?_append,
    Option.or_assoc]

/-- The last of the entries with a key is still the last when all are written again. -/
@[simp]
theorem insertAll_insertAll_self (m : SortedMap α β) (entries : List (α × β)) :
    (m.insertAll entries).insertAll entries = m.insertAll entries := by
  ext k : 1
  rw [get?_insertAll, get?_insertAll, ← Option.or_assoc, Option.or_self]

@[simp]
theorem get?_ofList (entries : List (α × β)) (k : α) :
    (ofList entries).get? k = Assoc.get? k entries.reverse :=
  (Assoc.get?_insertAll k entries []).trans Option.or_none

theorem mem_of_get?_ofList {entries : List (α × β)} {k : α} {v : β}
    (h : (ofList entries).get? k = some v) : (k, v) ∈ entries := by
  rw [get?_ofList] at h
  exact List.mem_reverse.1 (Assoc.mem_of_get? h)

end SortedMap

namespace SortedSet

variable [Std.TransOrd α] [Std.LawfulEqOrd α]

omit [Std.TransOrd α] in
@[simp]
theorem mem_toList (s : SortedSet α) (a : α) : a ∈ s.toList ↔ s.contains a = true :=
  (s.contains_iff_mem_keys a).symm

@[simp]
theorem contains_add (s : SortedSet α) (a b : α) :
    (s.add a).contains b = true ↔ b = a ∨ s.contains b = true := by
  rw [add, SortedMap.contains]
  by_cases h : b = a
  · subst h
    simp
  · rw [SortedMap.get?_insert_of_ne _ h]
    simp [h, SortedMap.contains]

@[simp]
theorem contains_addAll (s : SortedSet α) (as : List α) (b : α) :
    (s.addAll as).contains b = true ↔ b ∈ as ∨ s.contains b = true := by
  rw [addAll, SortedMap.contains, SortedMap.get?_insertAll, Option.isSome_or, Bool.or_eq_true,
    Assoc.get?_isSome_iff, SortedMap.contains]
  simp

end SortedSet

end MediaCache
