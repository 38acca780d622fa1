/-!
# Association lists in key order

Insertion keeps the keys ascending and replaces an equal key. The laws of `get?` need no order, so
they also hold of lists that came from elsewhere.
-/

namespace MediaCache.Assoc

variable {α β γ : Type} [Ord α]

def get? (k : α) : List (α × β) → Option β
  | [] => none
  | (k', v) :: rest =>
    match compare k k' with
    | .eq => some v
    | _ => get? k rest

def contains (k : α) (l : List (α × β)) : Bool :=
  (get? k l).isSome

def insert (k : α) (v : β) : List (α × β) → List (α × β)
  | [] => [(k, v)]
  | (k', v') :: rest =>
    match compare k k' with
    | .lt => (k, v) :: (k', v') :: rest
    | .eq => (k, v) :: rest
    | .gt => (k', v') :: insert k v rest

def erase (k : α) (l : List (α × β)) : List (α × β) :=
  l.filter fun e => compare k e.1 != .eq

/-- Writes the entries of a list one by one, so a later one wins. -/
def insertAll (entries : List (α × β)) (l : List (α × β)) : List (α × β) :=
  entries.foldl (fun acc e => insert e.1 e.2 acc) l

def ofList (entries : List (α × β)) : List (α × β) :=
  insertAll entries []

def mapValues (f : β → γ) (l : List (α × β)) : List (α × γ) :=
  l.map fun e => (e.1, f e.2)

def Ordered (l : List (α × β)) : Prop :=
  l.Pairwise fun a b => compare a.1 b.1 = .lt

/-! ## Order is kept -/

theorem ordered_nil : Ordered ([] : List (α × β)) := List.Pairwise.nil

theorem mem_insert {k : α} {v : β} {e : α × β} {l : List (α × β)} (h : e ∈ insert k v l) :
    e = (k, v) ∨ e ∈ l := by
  induction l with
  | nil => simpa [insert] using h
  | cons head rest ih =>
    obtain ⟨k', v'⟩ := head
    rw [insert] at h
    split at h <;> simp only [List.mem_cons] at h ⊢
    · exact h
    · exact h.imp_right .inr
    · rcases h with h | h
      · exact .inr (.inl h)
      · exact (ih h).imp_right .inr

theorem Ordered.insert [Std.TransOrd α] (k : α) (v : β) {l : List (α × β)} (h : Ordered l) :
    Ordered (Assoc.insert k v l) := by
  induction l with
  | nil => simp [Assoc.insert, Ordered]
  | cons head rest ih =>
    obtain ⟨k', v'⟩ := head
    obtain ⟨hhead, hrest⟩ := List.pairwise_cons.1 h
    rw [Assoc.insert]
    split
    · rename_i hlt
      refine List.pairwise_cons.2 ⟨fun e he => ?_, h⟩
      rcases List.mem_cons.1 he with rfl | he
      · exact hlt
      · exact Std.TransCmp.lt_trans hlt (hhead e he)
    · rename_i heq
      exact List.pairwise_cons.2 ⟨fun e he => Std.TransCmp.lt_of_eq_of_lt heq (hhead e he), hrest⟩
    · rename_i hgt
      refine List.pairwise_cons.2 ⟨fun e he => ?_, ih hrest⟩
      rcases mem_insert he with rfl | he
      · exact Std.OrientedCmp.gt_iff_lt.1 hgt
      · exact hhead e he

theorem Ordered.filter {l : List (α × β)} (h : Ordered l) (p : α × β → Bool) :
    Ordered (l.filter p) :=
  List.Pairwise.filter p h

theorem Ordered.erase {l : List (α × β)} (h : Ordered l) (k : α) : Ordered (Assoc.erase k l) :=
  h.filter _

theorem Ordered.insertAll [Std.TransOrd α] (entries : List (α × β)) {l : List (α × β)}
    (h : Ordered l) : Ordered (Assoc.insertAll entries l) := by
  induction entries generalizing l with
  | nil => exact h
  | cons e rest ih => exact ih (h.insert e.1 e.2)

theorem ordered_ofList [Std.TransOrd α] (entries : List (α × β)) : Ordered (ofList entries) :=
  ordered_nil.insertAll entries

theorem Ordered.mapValues (f : β → γ) {l : List (α × β)} (h : Ordered l) :
    Ordered (Assoc.mapValues f l) :=
  List.Pairwise.map _ (fun _ _ h => h) h

/-! ## Looking up after a write -/

@[simp]
theorem get?_insert_self [Std.LawfulEqOrd α] (k : α) (v : β) (l : List (α × β)) :
    get? k (insert k v l) = some v := by
  induction l with
  | nil => simp [insert, get?]
  | cons head rest ih =>
    obtain ⟨k', v'⟩ := head
    rw [insert]
    split
    · simp [get?]
    · simp [get?]
    · rename_i hgt
      simp [get?, hgt, ih]

theorem get?_insert_of_ne [Std.LawfulEqOrd α] {j k : α} (h : j ≠ k) (v : β) (l : List (α × β)) :
    get? j (insert k v l) = get? j l := by
  have hjk : compare j k ≠ .eq := fun he => h (Std.LawfulEqCmp.eq_of_compare he)
  have step (w : β) (m : List (α × β)) : get? j ((k, w) :: m) = get? j m := by
    rw [get?]
    split
    · contradiction
    · rfl
  induction l with
  | nil => simp [insert, step, get?]
  | cons head rest ih =>
    obtain ⟨k', v'⟩ := head
    rw [insert]
    split
    · exact step v _
    · rename_i heq
      obtain rfl := Std.LawfulEqCmp.eq_of_compare heq
      rw [step, step]
    · simp only [get?, ih]

theorem get?_erase_self (k : α) (l : List (α × β)) : get? k (erase k l) = none := by
  induction l with
  | nil => rfl
  | cons head rest ih =>
    obtain ⟨k', v'⟩ := head
    unfold erase at ih ⊢
    cases h : compare k k' <;> simp [h, ih, get?]

theorem get?_erase_of_ne [Std.LawfulEqOrd α] {j k : α} (h : j ≠ k) (l : List (α × β)) :
    get? j (erase k l) = get? j l := by
  induction l with
  | nil => rfl
  | cons head rest ih =>
    obtain ⟨k', v'⟩ := head
    unfold erase at ih ⊢
    by_cases hk : compare k k' = .eq
    · obtain rfl := Std.LawfulEqCmp.eq_of_compare hk
      have hjk : compare j k ≠ .eq := fun he => h (Std.LawfulEqCmp.eq_of_compare he)
      rw [List.filter_cons_of_neg (by simp), ih, get?]
      split
      · contradiction
      · rfl
    · rw [List.filter_cons_of_pos (by simpa using hk)]
      simp only [get?, ih]

theorem get?_mapValues (f : β → γ) (k : α) (l : List (α × β)) :
    get? k (mapValues f l) = (get? k l).map f := by
  induction l with
  | nil => rfl
  | cons head rest ih =>
    obtain ⟨k', v'⟩ := head
    unfold mapValues at ih ⊢
    simp only [List.map_cons, get?, ih]
    split <;> simp_all

theorem Ordered.ext [Std.TransOrd α] [Std.LawfulEqOrd α] {l m : List (α × β)} (hl : Ordered l) (hm : Ordered m)
    (h : ∀ k, get? k l = get? k m) : l = m := by
  induction l generalizing m with
  | nil =>
    cases m with
    | nil => rfl
    | cons e m => simpa [get?] using h e.1
  | cons e l ih =>
    cases m with
    | nil => simpa [get?] using h e.1
    | cons f m =>
      obtain ⟨k, v⟩ := e
      obtain ⟨k', v'⟩ := f
      obtain ⟨hk, hlt⟩ := List.pairwise_cons.1 hl
      obtain ⟨hk', hmt⟩ := List.pairwise_cons.1 hm
      -- A key that comes before all others of a list is not in it.
      have absent {j : α} {t : List (α × β)} (hj : ∀ e ∈ t, compare j e.1 = .lt) : get? j t = none := by
        induction t with
        | nil => rfl
        | cons e t iht =>
          obtain ⟨i, w⟩ := e
          have := hj (i, w) (by simp)
          simp only at this
          simp [get?, this, iht fun e he => hj e (by simp [he])]
      -- The smaller of the two first keys would be missing from the other list.
      have keys : compare k k' = .eq := by
        cases hc : compare k k' with
        | eq => rfl
        | lt =>
          have := h k
          rw [absent (t := (k', v') :: m) (fun e he => by
            rcases List.mem_cons.1 he with rfl | he
            · exact hc
            · exact Std.TransCmp.lt_trans hc (hk' e he))] at this
          simp [get?] at this
        | gt =>
          have hc' := Std.OrientedCmp.gt_iff_lt.1 hc
          have := h k'
          rw [absent (t := (k, v) :: l) (fun e he => by
            rcases List.mem_cons.1 he with rfl | he
            · exact hc'
            · exact Std.TransCmp.lt_trans hc' (hk e he))] at this
          simp [get?] at this
      obtain rfl := Std.LawfulEqCmp.eq_of_compare keys
      have hv : v = v' := by simpa [get?] using h k
      subst hv
      congr 1
      refine ih hlt hmt fun j => ?_
      cases hj : compare j k with
      | eq =>
        obtain rfl := Std.LawfulEqCmp.eq_of_compare hj
        rw [absent hk, absent hk']
      | lt => simpa [get?, hj] using h j
      | gt => simpa [get?, hj] using h j

end MediaCache.Assoc
