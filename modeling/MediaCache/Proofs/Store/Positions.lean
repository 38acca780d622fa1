import MediaCache.Proofs.Json.Sorted

/-!
# Positions in a shape

A position is a path through fields and list elements. A shape with ascending keys is known as soon as
it is known what kind of shape stands at each position.
-/

namespace MediaCache

namespace Shape

inductive Step where
  | field (key : String)
  | element
deriving DecidableEq

inductive Kind where
  | leaf
  | object
  | list
deriving DecidableEq

def kind : Shape → Kind
  | leaf => .leaf
  | object _ => .object
  | list _ => .list

def part? : Shape → Step → Option Shape
  | object fields, .field key => Assoc.get? key fields
  | list element, .element => some element
  | _, _ => none

def kindAt? (shape : Shape) : List Step → Option Kind
  | [] => some shape.kind
  | step :: path => (shape.part? step).bind fun s => s.kindAt? path

def Selects (shape : Shape) (way : List Step) (key : String) : Prop :=
  (shape.kindAt? (way ++ [.field key])).isSome = true

theorem sorted_part? {shape s : Shape} (h : shape.Sorted) {step : Step}
    (hs : shape.part? step = some s) : s.Sorted := by
  cases step with
  | field key =>
    cases shape with
    | object fields => exact sortedFields_iff.1 h.2 _ (Assoc.mem_of_get? hs)
    | _ => cases hs
  | element =>
    cases shape with
    | list element =>
      cases hs
      exact h
    | _ => cases hs

theorem selects_cons {shape : Shape} {step : Step} {way : List Step} {key : String} :
    Selects shape (step :: way) key ↔ ∃ s, shape.part? step = some s ∧ Selects s way key := by
  unfold Selects
  rw [List.cons_append, kindAt?]
  cases shape.part? step with
  | none => simp
  | some s => simp

theorem selects_nil {shape : Shape} {key : String} :
    Selects shape [] key ↔ (shape.part? (.field key)).isSome = true := by
  unfold Selects
  rw [List.nil_append, kindAt?]
  cases shape.part? (.field key) with
  | none => simp
  | some s => simp [kindAt?]

theorem not_selects_leaf (way : List Step) (key : String) : ¬Selects leaf way key := by
  cases way with
  | nil => simp [selects_nil, part?]
  | cons step way => simp [selects_cons, part?]

/-! ## The kinds say all -/

theorem fields_eq_of_kindAt? {fields others : List (String × Shape)} (hfields : Assoc.Ordered fields)
    (hothers : (object others).Sorted)
    (hmembers : ∀ e ∈ fields, ∀ s : Shape, s.Sorted → (∀ path, e.2.kindAt? path = s.kindAt? path) →
      e.2 = s)
    (h : ∀ path, (object fields).kindAt? path = (object others).kindAt? path) : fields = others := by
  apply hfields.ext hothers.1
  intro key
  have hkey (path : List Step) : ((Assoc.get? key fields).bind fun s => s.kindAt? path) =
      (Assoc.get? key others).bind fun s => s.kindAt? path := h (.field key :: path)
  cases hleft : Assoc.get? key fields with
  | none =>
    cases hright : Assoc.get? key others with
    | none => rfl
    | some t =>
      rw [hleft, hright] at hkey
      cases hkey []
  | some s =>
    cases hright : Assoc.get? key others with
    | none =>
      rw [hleft, hright] at hkey
      cases hkey []
    | some t =>
      rw [hleft, hright] at hkey
      have ht := sortedFields_iff.1 hothers.2 _ (Assoc.mem_of_get? hright)
      exact congrArg some (hmembers _ (Assoc.mem_of_get? hleft) t ht hkey)

mutual

theorem eq_of_kindAt? : ∀ a b : Shape, a.Sorted → b.Sorted →
    (∀ path, a.kindAt? path = b.kindAt? path) → a = b
  | leaf, b, _, _, h => by
    cases b with
    | leaf => rfl
    | _ => cases h []
  | object fields, b, ha, hb, h => by
    cases b with
    | object others =>
      rw [fields_eq_of_kindAt? ha.1 hb (eq_of_kindAt?_of_mem fields ha.2) h]
    | _ => cases h []
  | list element, b, ha, hb, h => by
    cases b with
    | list other => rw [eq_of_kindAt? element other ha hb fun path => h (.element :: path)]
    | _ => cases h []

theorem eq_of_kindAt?_of_mem : ∀ fields : List (String × Shape), SortedFields fields →
    ∀ e ∈ fields, ∀ s : Shape, s.Sorted → (∀ path, e.2.kindAt? path = s.kindAt? path) → e.2 = s
  | [], _, _, he => nomatch he
  | (_, shape) :: rest, h, e, he => by
    intro s hs hkinds
    rcases List.mem_cons.1 he with rfl | hrest
    · exact eq_of_kindAt? shape s h.1 hs hkinds
    · exact eq_of_kindAt?_of_mem rest h.2 e hrest s hs hkinds

end

end Shape

end MediaCache
