import MediaCache.Data.Assoc
import MediaCache.Json.Number

/-!
# JSON values

The members of an object are an association list. Values that were read or built by the functions
here have their keys ascending; printing follows the list, whatever its order.
-/

namespace MediaCache

inductive Json where
  | null
  | bool (b : Bool)
  | number (n : Number)
  | string (s : String)
  | array (items : List Json)
  | object (fields : List (String × Json))
deriving Inhabited, Repr

namespace Json

abbrev Fields := List (String × Json)

mutual

def beq : Json → Json → Bool
  | null, null => true
  | bool a, bool b => a == b
  | number a, number b => a == b
  | string a, string b => a == b
  | array a, array b => beqItems a b
  | object a, object b => beqFields a b
  | _, _ => false

def beqItems : List Json → List Json → Bool
  | [], [] => true
  | a :: as, b :: bs => beq a b && beqItems as bs
  | _, _ => false

def beqFields : List (String × Json) → List (String × Json) → Bool
  | [], [] => true
  | (k, a) :: as, (j, b) :: bs => k == j && beq a b && beqFields as bs
  | _, _ => false

end

mutual

theorem eq_of_beq : ∀ {a b : Json}, beq a b = true → a = b
  | null, null, _ => rfl
  | bool _, bool _, h => by simpa [beq] using h
  | number _, number _, h => by simpa [beq] using h
  | string _, string _, h => by simpa [beq] using h
  | array _, array _, h => congrArg array (eq_of_beqItems h)
  | object _, object _, h => congrArg object (eq_of_beqFields h)

theorem eq_of_beqItems : ∀ {a b : List Json}, beqItems a b = true → a = b
  | [], [], _ => rfl
  | a :: as, b :: bs, h => by
    simp only [beqItems, Bool.and_eq_true] at h
    rw [eq_of_beq h.1, eq_of_beqItems h.2]

theorem eq_of_beqFields : ∀ {a b : List (String × Json)}, beqFields a b = true → a = b
  | [], [], _ => rfl
  | (k, a) :: as, (j, b) :: bs, h => by
    simp only [beqFields, Bool.and_eq_true, beq_iff_eq] at h
    rw [h.1.1, eq_of_beq h.1.2, eq_of_beqFields h.2]

end

mutual

theorem beq_refl : ∀ a : Json, beq a a = true
  | null => rfl
  | bool _ => by simp [beq]
  | number _ => by simp [beq]
  | string _ => by simp [beq]
  | array items => beqItems_refl items
  | object fields => beqFields_refl fields

theorem beqItems_refl : ∀ a : List Json, beqItems a a = true
  | [] => rfl
  | a :: as => by simp [beqItems, beq_refl a, beqItems_refl as]

theorem beqFields_refl : ∀ a : List (String × Json), beqFields a a = true
  | [] => rfl
  | (k, a) :: as => by simp [beqFields, beq_refl a, beqFields_refl as]

end

instance : DecidableEq Json := fun a b =>
  if h : beq a b then isTrue (eq_of_beq h)
  else isFalse fun e => h (e ▸ beq_refl a)

/-! ## Parts of a value -/

def field? (v : Json) (key : String) : Option Json :=
  match v with
  | object fields => Assoc.get? key fields
  | _ => none

def asString? : Json → Option String
  | string s => some s
  | _ => none

def asBool? : Json → Option Bool
  | bool b => some b
  | _ => none

def asItems? : Json → Option (List Json)
  | array items => some items
  | _ => none

def asNumber? : Json → Option Number
  | number n => some n
  | _ => none

def asInt64? (v : Json) : Option Int := v.asNumber?.bind Number.asInt64?

theorem inInt64_of_asInt64? {v : Json} {i : Int} (h : v.asInt64? = some i) : inInt64 i = true := by
  obtain ⟨n, -, hn⟩ := Option.bind_eq_some_iff.1 h
  cases n with
  | integer j =>
    obtain ⟨hfits, hj⟩ := Option.ite_none_right_eq_some.1 hn
    cases hj
    exact hfits
  | double x => cases hn

def asDouble? (v : Json) : Option Double := v.asNumber?.map Number.asDouble

def isNull : Json → Bool
  | null => true
  | _ => false

def isObject : Json → Bool
  | object _ => true
  | _ => false

/-! ## Building values -/

def int (i : Int) : Json := number (.integer i)

def strings (l : List String) : Json := array (l.map string)

def ofOption (f : α → Json) : Option α → Json
  | some a => f a
  | none => null

end Json

end MediaCache
