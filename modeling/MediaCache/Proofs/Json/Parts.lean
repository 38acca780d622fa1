import MediaCache.Json.Basic

/-!
# The parts of a value

The parts of a value are the value itself and, in an object or a list, the parts of its members. What
holds of all of them holds of the value at any depth.
-/

namespace MediaCache

namespace Json

def isScalar : Json → Bool
  | array _ | object _ => false
  | _ => true

mutual

def parts (v : Json) : List Json :=
  match v with
  | object fields => object fields :: partsOfFields fields
  | array items => array items :: partsOfItems items
  | v => [v]

def partsOfFields : List (String × Json) → List Json
  | [] => []
  | (_, v) :: rest => parts v ++ partsOfFields rest

def partsOfItems : List Json → List Json
  | [] => []
  | v :: rest => parts v ++ partsOfItems rest

end

theorem mem_partsOfFields {fields : Fields} {w : Json} :
    w ∈ partsOfFields fields ↔ ∃ e ∈ fields, w ∈ e.2.parts := by
  induction fields with
  | nil => simp [partsOfFields]
  | cons e rest ih =>
    obtain ⟨key, v⟩ := e
    simp [partsOfFields, ih]

theorem mem_partsOfItems {items : List Json} {w : Json} :
    w ∈ partsOfItems items ↔ ∃ v ∈ items, w ∈ v.parts := by
  induction items with
  | nil => simp [partsOfItems]
  | cons v rest ih => simp [partsOfItems, ih]

theorem mem_parts_object {fields : Fields} {w : Json} :
    w ∈ (object fields).parts ↔ w = object fields ∨ ∃ e ∈ fields, w ∈ e.2.parts := by
  rw [parts, List.mem_cons, mem_partsOfFields]

theorem mem_parts_array {items : List Json} {w : Json} :
    w ∈ (array items).parts ↔ w = array items ∨ ∃ v ∈ items, w ∈ v.parts := by
  rw [parts, List.mem_cons, mem_partsOfItems]

theorem parts_of_isScalar {v : Json} (h : v.isScalar = true) : v.parts = [v] := by
  cases v <;> first | rfl | cases h

/-! ## The numbers of a value -/

variable {p : Number → Prop}

theorem forall_number_array {items : List Json} :
    (∀ n, number n ∈ (array items).parts → p n) ↔ ∀ v ∈ items, ∀ n, number n ∈ v.parts → p n := by
  constructor
  · exact fun h v hv n hn => h n (mem_parts_array.2 (.inr ⟨v, hv, hn⟩))
  · intro h n hn
    rcases mem_parts_array.1 hn with heq | ⟨v, hv, hn⟩
    · cases heq
    · exact h v hv n hn

theorem forall_number_object {fields : Fields} :
    (∀ n, number n ∈ (object fields).parts → p n) ↔ ∀ e ∈ fields, ∀ n, number n ∈ e.2.parts → p n := by
  constructor
  · exact fun h e he n hn => h n (mem_parts_object.2 (.inr ⟨e, he, hn⟩))
  · intro h n hn
    rcases mem_parts_object.1 hn with heq | ⟨e, he, hn⟩
    · cases heq
    · exact h e he n hn

end Json

end MediaCache
