import MediaCache.Proofs.Data.SortedMap
import MediaCache.Proofs.Json.Parts
import MediaCache.Store.Shape

/-!
# Values with ascending keys

Values that were read from text have the keys of every object in order, each once. Shapes of such
values are in order too, and stay so when they are joined.
-/

namespace MediaCache

namespace Json

mutual

def Sorted : Json → Prop
  | object fields => Assoc.Ordered fields ∧ SortedFields fields
  | array items => SortedItems items
  | _ => True

def SortedFields : List (String × Json) → Prop
  | [] => True
  | (_, v) :: rest => Sorted v ∧ SortedFields rest

def SortedItems : List Json → Prop
  | [] => True
  | v :: rest => Sorted v ∧ SortedItems rest

end

mutual

def decideSorted : (v : Json) → Decidable (Sorted v)
  | object fields =>
    have := decideSortedFields fields
    inferInstanceAs (Decidable (List.Pairwise _ fields ∧ SortedFields fields))
  | array items => decideSortedItems items
  | null | bool _ | number _ | string _ => inferInstanceAs (Decidable True)

def decideSortedFields : (fields : List (String × Json)) → Decidable (SortedFields fields)
  | [] => inferInstanceAs (Decidable True)
  | (_, v) :: rest =>
    have := decideSorted v
    have := decideSortedFields rest
    inferInstanceAs (Decidable (Sorted v ∧ SortedFields rest))

def decideSortedItems : (items : List Json) → Decidable (SortedItems items)
  | [] => inferInstanceAs (Decidable True)
  | v :: rest =>
    have := decideSorted v
    have := decideSortedItems rest
    inferInstanceAs (Decidable (Sorted v ∧ SortedItems rest))

end

instance (v : Json) : Decidable v.Sorted := decideSorted v

theorem sortedFields_iff {fields : Fields} : SortedFields fields ↔ ∀ e ∈ fields, e.2.Sorted := by
  induction fields with
  | nil => simp [SortedFields]
  | cons e rest ih =>
    obtain ⟨key, v⟩ := e
    rw [SortedFields, ih, List.forall_mem_cons]

theorem sortedItems_iff {items : List Json} : SortedItems items ↔ ∀ v ∈ items, v.Sorted := by
  induction items with
  | nil => simp [SortedItems]
  | cons v rest ih => rw [SortedItems, ih, List.forall_mem_cons]

theorem sorted_of_isScalar {v : Json} (h : v.isScalar = true) : v.Sorted := by
  cases v with
  | array items => cases h
  | object fields => cases h
  | _ => trivial

theorem Sorted.field? {v w : Json} (h : v.Sorted) {key : String} (hw : v.field? key = some w) :
    w.Sorted := by
  cases v with
  | object fields => exact sortedFields_iff.1 h.2 _ (Assoc.mem_of_get? hw)
  | _ => cases hw

theorem Sorted.insert {fields : Fields} (h : (object fields).Sorted) (key : String) {v : Json}
    (hv : v.Sorted) : (object (Assoc.insert key v fields)).Sorted := by
  refine ⟨h.1.insert key v, sortedFields_iff.2 fun e he => ?_⟩
  rcases Assoc.mem_insert he with rfl | he
  · exact hv
  · exact sortedFields_iff.1 h.2 e he

end Json

namespace Shape

mutual

def Sorted : Shape → Prop
  | leaf => True
  | object fields => Assoc.Ordered fields ∧ SortedFields fields
  | list element => Sorted element

def SortedFields : List (String × Shape) → Prop
  | [] => True
  | (_, shape) :: rest => Sorted shape ∧ SortedFields rest

end

theorem sortedFields_iff {fields : List (String × Shape)} :
    SortedFields fields ↔ ∀ e ∈ fields, e.2.Sorted := by
  induction fields with
  | nil => simp [SortedFields]
  | cons e rest ih =>
    obtain ⟨key, shape⟩ := e
    rw [SortedFields, ih, List.forall_mem_cons]

theorem sortedFields_insert {fields : List (String × Shape)} (h : SortedFields fields) (key : String)
    {shape : Shape} (hshape : shape.Sorted) : SortedFields (Assoc.insert key shape fields) := by
  refine sortedFields_iff.2 fun e he => ?_
  rcases Assoc.mem_insert he with rfl | he
  · exact hshape
  · exact sortedFields_iff.1 h e he

mutual

theorem sorted_union (a : Shape) (ha : a.Sorted) : ∀ b : Shape, b.Sorted → (union a b).Sorted
  | leaf, _ => by rw [union]; exact ha
  | object fields, hb => by
    cases a with
    | object present => exact sorted_unionFields present ha.1 ha.2 fields hb.2
    | leaf => exact hb
    | list _ => exact hb
  | list element, hb => by
    cases a with
    | list present => exact sorted_union present ha element hb
    | leaf => exact hb
    | object _ => exact hb

theorem sorted_unionFields (present : List (String × Shape)) (hordered : Assoc.Ordered present)
    (hpresent : SortedFields present) : ∀ fields : List (String × Shape), SortedFields fields →
      (object (unionFields present fields)).Sorted
  | [], _ => by rw [unionFields]; exact ⟨hordered, hpresent⟩
  | (key, shape) :: rest, h => by
    have hjoined : (match Assoc.get? key present with
        | some existing => union existing shape
        | none => shape).Sorted := by
      cases hget : Assoc.get? key present with
      | none => exact h.1
      | some existing =>
        exact sorted_union existing (sortedFields_iff.1 hpresent _ (Assoc.mem_of_get? hget)) shape h.1
    rw [unionFields]
    exact sorted_unionFields _ (hordered.insert key _) (sortedFields_insert hpresent key hjoined)
      rest h.2

end

theorem mem_of_mem_ofFields {fields : List (String × Json)} {e : String × Shape}
    (h : e ∈ ofFields fields) : ∃ v, (e.1, v) ∈ fields := by
  induction fields with
  | nil =>
    rw [ofFields] at h
    cases h
  | cons field rest ih =>
    obtain ⟨key, v⟩ := field
    have hrest : e ∈ ofFields rest → ∃ w, (e.1, w) ∈ (key, v) :: rest := by
      intro he
      obtain ⟨w, hw⟩ := ih he
      exact ⟨w, List.mem_cons_of_mem _ hw⟩
    rw [ofFields] at h
    split at h
    · exact hrest h
    · rcases List.mem_cons.1 h with rfl | he
      · exact ⟨v, List.mem_cons_self⟩
      · exact hrest he

theorem ordered_ofFields {fields : List (String × Json)} (h : Assoc.Ordered fields) :
    Assoc.Ordered (ofFields fields) := by
  induction fields with
  | nil => exact Assoc.ordered_nil
  | cons field rest ih =>
    obtain ⟨key, v⟩ := field
    obtain ⟨hfirst, hrest⟩ := List.pairwise_cons.1 h
    rw [ofFields]
    split
    · exact ih hrest
    · refine List.pairwise_cons.2 ⟨fun e he => ?_, ih hrest⟩
      obtain ⟨w, hw⟩ := mem_of_mem_ofFields he
      exact hfirst _ hw

mutual

theorem sorted_ofData : ∀ v : Json, v.Sorted → (ofData v).Sorted
  | .object fields, h => by
    rw [ofData]
    exact ⟨ordered_ofFields h.1, sortedFields_ofFields fields h.2⟩
  | .array items, h => by
    rw [ofData]
    exact sorted_ofItems leaf trivial items h
  | .null, _ | .bool _, _ | .number _, _ | .string _, _ => trivial

theorem sortedFields_ofFields : ∀ fields : List (String × Json), Json.SortedFields fields →
    SortedFields (ofFields fields)
  | [], _ => trivial
  | (key, v) :: rest, h => by
    have hrest := sortedFields_ofFields rest h.2
    rw [ofFields]
    split
    · exact hrest
    · exact ⟨sorted_ofData v h.1, hrest⟩

theorem sorted_ofItems (seen : Shape) (hseen : seen.Sorted) : ∀ items : List Json,
    Json.SortedItems items → (ofItems seen items).Sorted
  | [], _ => hseen
  | v :: rest, h => by
    rw [ofItems]
    exact sorted_ofItems _ (sorted_union seen hseen _ (sorted_ofData v h.1)) rest h.2

end

end Shape

end MediaCache
