import MediaCache.Json.Decode

/-!
# Shapes

The shape of a root entry is the tree of fields it was written with. A later read needs every field
of that tree. The shape of a list is the union of the shapes of its elements.
-/

namespace MediaCache

inductive Shape where
  /-- A scalar, `null`, or data whose parts are not followed. -/
  | leaf
  | object (fields : List (String × Shape))
  | list (element : Shape)
deriving Inhabited, Repr

namespace Shape

mutual

/-- Fields of either object are fields of the union. -/
def union (a : Shape) : Shape → Shape
  | leaf => a
  | object fields =>
    match a with
    | object present => object (unionFields present fields)
    -- Where an object meets a list, the second shape wins.
    | _ => object fields
  | list element =>
    match a with
    | list present => list (union present element)
    | _ => list element

def unionFields (present : List (String × Shape)) : List (String × Shape) → List (String × Shape)
  | [] => present
  | (key, shape) :: rest =>
    let joined :=
      match Assoc.get? key present with
      | some existing => union existing shape
      | none => shape
    unionFields (Assoc.insert key joined present) rest

end

mutual

/-- The shape of data. `__typename` is always read and so is no part of it. -/
def ofData : Json → Shape
  | .object fields => object (ofFields fields)
  | .array items => list (ofItems leaf items)
  | _ => leaf

def ofFields : List (String × Json) → List (String × Shape)
  | [] => []
  | (key, v) :: rest => if key = "__typename" then ofFields rest else (key, ofData v) :: ofFields rest

def ofItems (seen : Shape) : List Json → Shape
  | [] => seen
  | v :: rest => ofItems (union seen (ofData v)) rest

end

mutual

def beq : Shape → Shape → Bool
  | leaf, leaf => true
  | object a, object b => beqFields a b
  | list a, list b => beq a b
  | _, _ => false

def beqFields : List (String × Shape) → List (String × Shape) → Bool
  | [], [] => true
  | (k, a) :: as, (j, b) :: bs => k == j && beq a b && beqFields as bs
  | _, _ => false

end

mutual

theorem eq_of_beq : ∀ {a b : Shape}, beq a b = true → a = b
  | leaf, leaf, _ => rfl
  | object _, object _, h => congrArg object (eq_of_beqFields h)
  | list _, list _, h => congrArg list (eq_of_beq h)

theorem eq_of_beqFields : ∀ {a b : List (String × Shape)}, beqFields a b = true → a = b
  | [], [], _ => rfl
  | (k, a) :: as, (j, b) :: bs, h => by
    simp only [beqFields, Bool.and_eq_true, beq_iff_eq] at h
    rw [h.1.1, eq_of_beq h.1.2, eq_of_beqFields h.2]

end

mutual

theorem beq_refl : ∀ a : Shape, beq a a = true
  | leaf => rfl
  | object fields => beqFields_refl fields
  | list element => beq_refl element

theorem beqFields_refl : ∀ a : List (String × Shape), beqFields a a = true
  | [] => rfl
  | (k, a) :: as => by simp [beqFields, beq_refl a, beqFields_refl as]

end

instance : DecidableEq Shape := fun a b =>
  if h : beq a b then isTrue (eq_of_beq h)
  else isFalse fun e => h (e ▸ beq_refl a)

/-! ## JSON form -/

mutual

def toJson : Shape → Json
  | leaf => .string "leaf"
  | object fields => .object [("object", .object (toFields fields))]
  | list element => .object [("list", toJson element)]

def toFields : List (String × Shape) → Json.Fields
  | [] => []
  | (key, shape) :: rest => (key, toJson shape) :: toFields rest

end

mutual

/-- Reads `"leaf"` or an object with one key, which names the kind of shape. -/
def ofWritten? (limit : Written.Limit) : Written → Option Shape
  | .string (some "leaf") => some leaf
  | .object [(some "leaf", .null)] => (Written.Limit.enter? limit).map fun _ => leaf
  | .object [(some "list", element)] => do
    let inner ← Written.Limit.enter? limit
    return list (← ofWritten? inner element)
  | .object [(some "object", .object fields)] => do
    let inner ← Written.Limit.enter? (← Written.Limit.enter? limit)
    return object (← ofMembers? inner fields [])
  | _ => none

def ofMembers? (limit : Written.Limit) :
    List (Option String × Written) → List (String × Shape) → Option (List (String × Shape))
  | [], read => some read
  | (some key, w) :: rest, read => do
    ofMembers? limit rest (Assoc.insert key (← ofWritten? limit w) read)
  | (none, _) :: _, _ => none

end

def ofJson? (v : Json) : Option Shape := ofWritten? none (.ofJson v)

end Shape

end MediaCache
