import MediaCache.Number.Double

/-!
# Doubles as decimals

A decimal is read as the nearest double. A double is written with the fewest digits that read back
as itself and, of those, the nearest.
-/

namespace MediaCache

structure Decimal where
  digits : Nat
  exponent : Int
deriving DecidableEq, Repr

namespace Decimal

def digitCount (n : Nat) : Nat := (Nat.toDigits 10 n).length

/-- The nearest double, unless the number is too large. -/
def toDouble? (negative : Bool) (d : Decimal) : Option Double :=
  let magnitude := d.exponent + digitCount d.digits
  -- These two only keep the powers of ten small: every double is below 10^309, and a number below
  -- 10^-324 rounds to zero.
  if d.digits = 0 ∨ magnitude ≤ -324 then some ⟨negative, 0⟩
  else if 310 ≤ magnitude then none
  else if 0 ≤ d.exponent then
    Double.ofRatio? negative (d.digits * Nat.pow 10 d.exponent.toNat * Double.unitsPerOne) 1
  else
    Double.ofRatio? negative (d.digits * Double.unitsPerOne) (Nat.pow 10 (-d.exponent).toNat)

def trim (d : Decimal) : Decimal :=
  go d.digits d d.digits
where
  go : Nat → Decimal → Nat → Decimal
    | 0, d, _ => d
    | fuel + 1, d, n =>
      if n % 10 = 0 ∧ n ≠ 0 then go fuel ⟨n / 10, d.exponent + 1⟩ (n / 10) else d

end Decimal

namespace Double

/-- The exponent of the first digit of a magnitude that is not zero. -/
def leadingExponent (units : Nat) : Int :=
  -- The magnitude is at least 10^-324, so times 10^324 it has all its digits before the point.
  Decimal.digitCount (units * Nat.pow 10 324 / unitsPerOne) - 325

def neighbours (units : Nat) (exponent : Int) : List Decimal :=
  let num := if 0 ≤ exponent then units else units * Nat.pow 10 (-exponent).toNat
  let den := if 0 ≤ exponent then unitsPerOne * Nat.pow 10 exponent.toNat else unitsPerOne
  let q := num / den
  let r := num % den
  let below : Decimal := ⟨q, exponent⟩
  let above : Decimal := ⟨q + 1, exponent⟩
  if den < 2 * r ∨ (2 * r = den ∧ q % 2 = 1) then [above, below] else [below, above]

/-- Every double has an exact decimal, as two divides ten. -/
def exactDecimal (units : Nat) : Decimal := ⟨units * Nat.pow 5 1074, -1074⟩

def readsBack (units : Nat) (d : Decimal) : Bool :=
  d.toDouble? false == some ⟨false, units⟩

/-- The nearest of the shortest decimals that read back as the magnitude. Seventeen digits always
do. -/
def shortest (units : Nat) : Decimal :=
  let lead := leadingExponent units
  let found := (List.range 17).findSome? fun (n : Nat) =>
    (neighbours units (lead - n)).find? (readsBack units)
  (found.getD (exactDecimal units)).trim

end Double

structure DecimalStyle where
  leastPlain : Int
  greatestPlain : Int
  pointZero : Bool
  signedZero : Bool

namespace DecimalStyle

def plain (style : DecimalStyle) (digits : List Char) (lead : Int) : List Char :=
  if lead < 0 then
    '0' :: '.' :: List.replicate (-lead - 1).toNat '0' ++ digits
  else
    let whole := lead.toNat + 1
    if digits.length ≤ whole then
      digits ++ List.replicate (whole - digits.length) '0' ++
        (if style.pointZero then ['.', '0'] else [])
    else
      digits.take whole ++ '.' :: digits.drop whole

def scientific (digits : List Char) (lead : Int) : List Char :=
  let mantissa :=
    match digits with
    | first :: second :: rest => first :: '.' :: second :: rest
    | _ => digits
  mantissa ++ 'e' :: (if lead < 0 then '-' else '+') :: Nat.toDigits 10 lead.natAbs

def magnitude (style : DecimalStyle) (d : Decimal) : List Char :=
  let digits := Nat.toDigits 10 d.digits
  let lead := d.exponent + digits.length - 1
  if style.leastPlain ≤ lead ∧ lead ≤ style.greatestPlain then style.plain digits lead
  else scientific digits lead

def write (style : DecimalStyle) (x : Double) : List Char :=
  let signed := x.negative && (x.units != 0 || style.signedZero)
  let text := style.magnitude (if x.units = 0 then ⟨0, 0⟩ else Double.shortest x.units)
  if signed then '-' :: text else text

end DecimalStyle

end MediaCache
