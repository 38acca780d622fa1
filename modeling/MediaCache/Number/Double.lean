/-!
# Finite doubles

Every finite double is a whole number of units of 2^-1074. Its magnitude is therefore kept as a
natural number, and rounding, adding and truncating are exact arithmetic on naturals. Zero keeps its
sign.
-/

namespace MediaCache

structure Double where
  negative : Bool
  units : Nat
deriving DecidableEq, Repr, Inhabited

namespace Double

def unitsPerOne : Nat := Nat.pow 2 1074

def limit : Nat := Nat.pow 2 2098

/-- The number of units nearest to `num / den` that 53 significant bits can hold. -/
def roundUnits (num den : Nat) : Nat :=
  let shift := (num / den).log2 - 52
  let step := den * Nat.pow 2 shift
  let q := num / step
  let r := num % step
  -- A half goes to the even neighbour.
  if step < 2 * r ∨ (2 * r = step ∧ q % 2 = 1) then (q + 1) * Nat.pow 2 shift
  else q * Nat.pow 2 shift

def Valid (x : Double) : Prop :=
  roundUnits x.units 1 = x.units ∧ x.units < limit

instance (x : Double) : Decidable x.Valid := inferInstanceAs (Decidable (_ ∧ _))

def ofRatio? (negative : Bool) (num den : Nat) : Option Double :=
  let units := roundUnits num den
  if units < limit then some ⟨negative, units⟩ else none

def ofInt (i : Int) : Double :=
  ⟨decide (i < 0), roundUnits (i.natAbs * unitsPerOne) 1⟩

def signedUnits (x : Double) : Int :=
  if x.negative then -(x.units : Int) else x.units

def neg (x : Double) : Double := ⟨!x.negative, x.units⟩

/-- The exact sum, rounded, unless it is too large. -/
def add? (x y : Double) : Option Double :=
  let sum := x.signedUnits + y.signedUnits
  -- A sum of zero is negative only when both terms are.
  if sum = 0 then some ⟨x.negative && y.negative, 0⟩
  else ofRatio? (decide (sum < 0)) sum.natAbs 1

def isWhole (x : Double) : Bool := x.units % unitsPerOne == 0

def isPositive (x : Double) : Bool := !x.negative && x.units != 0

def truncate (x : Double) : Int :=
  let whole : Int := ↑(x.units / unitsPerOne)
  if x.negative then -whole else whole

end Double

def inInt64 (i : Int) : Bool := decide (-0x8000000000000000 ≤ i ∧ i < 0x8000000000000000)

def clampInt64 (i : Int) : Int := max (-0x8000000000000000) (min 0x7FFFFFFFFFFFFFFF i)

/-- The integer of 64 bits with a sign that differs by a multiple of 2^64. -/
def wrapInt64 (i : Int) : Int := i.bmod 0x10000000000000000

theorem wrapInt64_of_inInt64 {i : Int} (h : inInt64 i = true) : wrapInt64 i = i := by
  simp only [inInt64, decide_eq_true_eq] at h
  exact Int.bmod_eq_of_le (by omega) (by omega)

theorem inInt64_wrapInt64 (i : Int) : inInt64 (wrapInt64 i) = true := by
  have hlow := Int.le_bmod (x := i) (m := 0x10000000000000000) (by decide)
  have hhigh := Int.bmod_lt (x := i) (m := 0x10000000000000000) (by decide)
  exact decide_eq_true ⟨by simp only [wrapInt64]; omega, by simp only [wrapInt64]; omega⟩

end MediaCache
