import MediaCache.Json.Basic
import MediaCache.Json.Token
import MediaCache.Time.Calendar

/-!
# TOML numbers and times

A scalar without quotes is a run of characters. It is a time, a float or an integer by its form
alone. Times are kept as text in one spelling; infinities and not-a-number have no JSON form and are
`null`.
-/

namespace MediaCache.Toml

open MediaCache.Json (NumberLiteral hexValue?)

inductive Scalar where
  | bool (b : Bool)
  | integer (i : Int)
  /-- Nothing stands for infinities and not-a-number. -/
  | float (x : Option Double)
  | string (s : String)
  | time (s : String)
deriving DecidableEq, Repr

def Scalar.toJson : Scalar → Json
  | bool b => .bool b
  | integer i => .int i
  | float x => .ofOption (fun x => .number (.double x)) x
  | string s => .string s
  | time s => .string s

/-! ## Times -/

def fixedDigits? (n : Nat) (cs : List Char) : Option (Nat × List Char) :=
  let digits := cs.take n
  if digits.length = n && digits.all Char.isDigit then
    some (NumberLiteral.readDigits digits, cs.drop n)
  else none

def expect? (c : Char) : List Char → Option (List Char)
  | d :: rest => if c = d then some rest else none
  | [] => none

def date? (cs : List Char) : Option (List Char × List Char) := do
  let (year, rest) ← fixedDigits? 4 cs
  let (month, rest) ← fixedDigits? 2 (← expect? '-' rest)
  let (day, rest) ← fixedDigits? 2 (← expect? '-' rest)
  if (Date.mk year month day).Exists then return (cs.take 10, rest) else none

def fractionText (digits : List Char) : List Char :=
  match ((digits.take 9).reverse.dropWhile (· == '0')).reverse with
  | [] => []
  | digits => '.' :: digits

/-- A time of day, where a minute may have a leap second. -/
def time? (cs : List Char) : Option (List Char × List Char) := do
  let (hour, rest) ← fixedDigits? 2 cs
  let (minute, rest) ← fixedDigits? 2 (← expect? ':' rest)
  let (second, rest) ← fixedDigits? 2 (← expect? ':' rest)
  if hour ≤ 23 ∧ minute ≤ 59 ∧ second ≤ 60 then
    match rest with
    | '.' :: rest =>
      let digits := rest.takeWhile Char.isDigit
      if digits.isEmpty then none
      else return (cs.take 8 ++ fractionText digits, rest.dropWhile Char.isDigit)
    | rest => return (cs.take 8, rest)
  else none

def offset? : List Char → Option (List Char)
  | ['Z'] => some ['Z']
  | ['z'] => some ['Z']
  | sign :: rest => do
    if sign = '+' ∨ sign = '-' then
      let (hour, rest) ← fixedDigits? 2 rest
      let (minute, rest) ← fixedDigits? 2 (← expect? ':' rest)
      if hour ≤ 23 ∧ minute ≤ 59 ∧ rest.isEmpty then
        let shown := if hour = 0 ∧ minute = 0 then '+' else sign
        return shown :: paddedDigits 2 hour ++ ':' :: paddedDigits 2 minute
      else none
    else none
  | [] => none

def timeAndOffset? (cs : List Char) : Option (List Char) := do
  let (time, rest) ← time? cs
  if rest.isEmpty then return time else return time ++ (← offset? rest)

def timestamp? (cs : List Char) : Option (List Char) :=
  match date? cs with
  | some (date, []) => some date
  | some (date, separator :: rest) =>
    if separator = 'T' ∨ separator = 't' ∨ separator = ' ' then
      (timeAndOffset? rest).map fun time => date ++ 'T' :: time
    else none
  | none =>
    match time? cs with
    | some (time, []) => some time
    | _ => none

/-! ## Numbers -/

/-- Digits with single underscores between them, without the underscores. -/
def grouped? (isDigit : Char → Bool) : List Char → Option (List Char)
  | [] => none
  | [c] => if isDigit c then some [c] else none
  | c :: '_' :: rest => if isDigit c then (grouped? isDigit rest).map (c :: ·) else none
  | c :: rest => if isDigit c then (grouped? isDigit rest).map (c :: ·) else none

def wholePart? (cs : List Char) : Option (List Char) := do
  let digits ← grouped? Char.isDigit cs
  if digits.head? = some '0' ∧ 1 < cs.length then none else return digits

def splitSign : List Char → Bool × List Char
  | '-' :: rest => (true, rest)
  | '+' :: rest => (false, rest)
  | cs => (false, cs)

def int64? (i : Int) : Option Scalar := if inInt64 i then some (.integer i) else none

def based? (base : Nat) (cs : List Char) : Option Scalar := do
  let isDigit (c : Char) : Bool := (hexValue? c).any (· < base)
  let digits ← grouped? isDigit cs
  int64? (digits.foldl (fun n c => base * n + (hexValue? c).getD 0) 0 : Nat)

def integer? : List Char → Option Scalar
  | '0' :: 'x' :: cs => based? 16 cs
  | '0' :: 'o' :: cs => based? 8 cs
  | '0' :: 'b' :: cs => based? 2 cs
  | cs => do
    let (negative, digits) := splitSign cs
    let n : Int := NumberLiteral.readDigits (← wholePart? digits)
    int64? (if negative then -n else n)

def splitAt (ends : Char → Bool) (cs : List Char) : List Char × Option (List Char) :=
  let before := cs.takeWhile fun c => !ends c
  match cs.dropWhile fun c => !ends c with
  | [] => (before, none)
  | _ :: behind => (before, some behind)

def exponent? (cs : List Char) : Option Int := do
  let (negative, digits) := splitSign cs
  let n : Int := NumberLiteral.readDigits (← grouped? Char.isDigit digits)
  return if negative then -n else n

/-- A number with a fraction, an exponent or both. -/
def float? (cs : List Char) : Option Scalar := do
  let (negative, unsigned) := splitSign cs
  let (mantissa, exponent) := splitAt (fun c => c == 'e' || c == 'E') unsigned
  let (whole, places) := splitAt (· == '.') mantissa
  if exponent.isNone && places.isNone then none
  else
    let whole ← wholePart? whole
    let places ← places.elim (some []) (grouped? Char.isDigit)
    let exponent ← exponent.elim (some 0) exponent?
    let value : Decimal := ⟨NumberLiteral.readDigits (whole ++ places), exponent - places.length⟩
    match value.toDouble? negative with
    | some x => return .float (some x)
    -- What is too large is refused, but minus infinity when it is negative.
    | none => if negative then return .float none else none

def isSpecial (cs : List Char) : Bool :=
  (splitSign cs).2 == ['i', 'n', 'f'] || (splitSign cs).2 == ['n', 'a', 'n']

def scalar? (cs : List Char) : Option Scalar :=
  match cs with
  | ['t', 'r', 'u', 'e'] => some (.bool true)
  | ['f', 'a', 'l', 's', 'e'] => some (.bool false)
  | cs =>
    if isSpecial cs then some (.float none)
    else
      match timestamp? cs with
      | some text => some (.time (String.ofList text))
      | none => (integer? cs).orElse fun _ => float? cs

end MediaCache.Toml
