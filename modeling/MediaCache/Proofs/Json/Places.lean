import MediaCache.Proofs.Data.SortedMap
import MediaCache.Json.Basic

/-!
# Places in a value

A place is the path that leads to it: keys of objects and positions in lists. To clear places is to set
fields to `null` and to take elements out of lists.
-/

namespace MediaCache

inductive PathStep where
  | member (key : String)
  | element (position : Nat)
deriving DecidableEq

abbrev Path := List PathStep

namespace Json

mutual

/-- The value without what stands at some of its places. Elements of a list go, anything else becomes
`null`. -/
def cleared (gone : Path → Bool) (v : Json) : Json :=
  if gone [] then null
  else
    match v with
    | object fields => object (clearedFields gone fields)
    | array items => array (clearedItems gone 0 items)
    | v => v

def clearedFields (gone : Path → Bool) : List (String × Json) → List (String × Json)
  | [] => []
  | (key, v) :: rest => (key, cleared (fun p => gone (.member key :: p)) v) :: clearedFields gone rest

/-- The elements from a position on. The elements before it have been passed over. -/
def clearedItems (gone : Path → Bool) (position : Nat) : List Json → List Json
  | [] => []
  | v :: rest =>
    if gone [.element position] then clearedItems gone (position + 1) rest
    else
      cleared (fun p => gone (.element position :: p)) v :: clearedItems gone (position + 1) rest

end

variable {gone gone' : Path → Bool}

theorem cleared_of_gone (h : gone [] = true) (v : Json) : v.cleared gone = null := by
  rw [cleared.eq_def, if_pos h]

theorem cleared_object (h : gone [] = false) (fields : Fields) :
    (object fields).cleared gone = object (clearedFields gone fields) := by
  rw [cleared, h, if_neg (by decide)]

theorem cleared_array (h : gone [] = false) (items : List Json) :
    (array items).cleared gone = array (clearedItems gone 0 items) := by
  rw [cleared, h, if_neg (by decide)]

theorem clearedFields_eq (gone : Path → Bool) (fields : Fields) :
    clearedFields gone fields = fields.map fun e => (e.1, e.2.cleared fun p => gone (.member e.1 :: p)) := by
  induction fields with
  | nil => rfl
  | cons e rest ih => rw [clearedFields, ih, List.map_cons]

theorem clearedItems_congr {position : Nat}
    (h : ∀ i p, position ≤ i → gone (.element i :: p) = gone' (.element i :: p)) (items : List Json) :
    clearedItems gone position items = clearedItems gone' position items := by
  induction items generalizing position with
  | nil => rw [clearedItems, clearedItems]
  | cons v rest ih =>
    have hrest := ih fun i p hi => h i p (Nat.le_of_succ_le hi)
    have hhere : (fun p => gone (.element position :: p)) = fun p => gone' (.element position :: p) :=
      funext fun p => h position p (Nat.le_refl _)
    rw [clearedItems, clearedItems, h position [] (Nat.le_refl _), hrest, hhere]

mutual

theorem cleared_nothing : ∀ v : Json, v.cleared (fun _ => false) = v
  | object fields => by rw [cleared_object rfl, clearedFields_nothing fields]
  | array items => by rw [cleared_array rfl, clearedItems_nothing 0 items]
  | null | bool _ | number _ | string _ => by simp [cleared]

theorem clearedFields_nothing : ∀ fields : List (String × Json),
    clearedFields (fun _ => false) fields = fields
  | [] => by rw [clearedFields]
  | (key, v) :: rest => by rw [clearedFields, cleared_nothing v, clearedFields_nothing rest]

theorem clearedItems_nothing (position : Nat) : ∀ items : List Json,
    clearedItems (fun _ => false) position items = items
  | [] => by rw [clearedItems]
  | v :: rest => by
    rw [clearedItems, if_neg (by decide), cleared_nothing v, clearedItems_nothing (position + 1) rest]

end

end Json

end MediaCache
