import MediaCache.Number.Decimal

/-!
# JSON numbers

A number is an integer or a double, and the two stay apart: `1` is not `1.0`. Integers read from text
fit 64 bits, with a sign or without.
-/

namespace MediaCache

inductive Number where
  | integer (value : Int)
  | double (value : Double)
deriving DecidableEq, Repr

/-- Documents write doubles with all digits from 10^-5 up to 10^16 and always show a point or a power
of ten. -/
def DecimalStyle.document : DecimalStyle := ⟨-5, 15, true, true⟩

/-- Canonical documents write doubles with all digits from 10^-6 up to 10^21, and whole numbers
without a point. -/
def DecimalStyle.canonical : DecimalStyle := ⟨-6, 20, false, false⟩

def integerText (i : Int) : List Char :=
  if i < 0 then '-' :: Nat.toDigits 10 i.natAbs else Nat.toDigits 10 i.natAbs

namespace Number

def asInt64? : Number → Option Int
  | integer i => if inInt64 i then some i else none
  | double _ => none

def asDouble : Number → Double
  | integer i => Double.ofInt i
  | double x => x

def write : Number → List Char
  | integer i => integerText i
  | double x => DecimalStyle.document.write x

/-- Canonical documents know doubles only. -/
def writeCanonical (n : Number) : List Char :=
  DecimalStyle.canonical.write n.asDouble

end Number

end MediaCache
