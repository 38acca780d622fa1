import MediaCache.Json.Token
import MediaCache.Text.Blank
import MediaCache.Time.Calendar

/-!
# Instants

An instant is read from a date, a time of day and an offset, and kept in UTC. Reading is generous with
white space and leading zeros. Writing gives the shortest exact fraction of 0, 3, 6 or 9 digits.
-/

namespace MediaCache

open Json (NumberLiteral)

structure Instant where
  date : Date
  hour : Nat
  minute : Nat
  /-- 60 in a leap second. -/
  second : Nat
  nanosecond : Nat
deriving DecidableEq, Repr

namespace Instant

def ofNanoseconds (n : Int) : Instant :=
  let seconds := n / 1000000000
  let ofDay := (seconds % 86400).toNat
  { date := Date.ofDays (seconds / 86400)
    hour := ofDay / 3600
    minute := ofDay / 60 % 60
    second := ofDay % 60
    nanosecond := (n % 1000000000).toNat }

/-! ## Reading -/

def skipBlanks (cs : List Char) : List Char := cs.dropWhile isBlank

def digits? (limit : Nat) (cs : List Char) : Option (Nat × List Char) :=
  let digits := (cs.takeWhile Char.isDigit).take limit
  if digits.isEmpty then none else some (NumberLiteral.readDigits digits, cs.drop digits.length)

def year? (cs : List Char) : Option (Int × List Char) :=
  match skipBlanks cs with
  | '-' :: rest => (digits? rest.length rest).map fun (n, rest) => (-(n : Int), rest)
  | '+' :: rest => (digits? rest.length rest).map fun (n, rest) => ((n : Int), rest)
  | rest => (digits? 4 rest).map fun (n, rest) => ((n : Int), rest)

def twoDigits? (cs : List Char) : Option (Nat × List Char) := digits? 2 (skipBlanks cs)

def expect? (c : Char) (cs : List Char) : Option (List Char) :=
  match skipBlanks cs with
  | d :: rest => if c = d then some rest else none
  | [] => none

def readDate? (cs : List Char) : Option (Date × List Char) := do
  let (year, rest) ← year? cs
  let (month, rest) ← twoDigits? (← expect? '-' rest)
  let (day, rest) ← twoDigits? (← expect? '-' rest)
  return (⟨year, month, day⟩, rest)

/-- Digits behind the ninth do not count. -/
def fraction? : List Char → Option (Nat × List Char)
  | '.' :: rest =>
    let digits := rest.takeWhile Char.isDigit
    if digits.isEmpty then none
    else
      let kept := digits.take 9
      some (NumberLiteral.readDigits kept * Nat.pow 10 (9 - kept.length), rest.drop digits.length)
  | rest => some (0, rest)

def isOffsetGap (c : Char) : Bool := c == ':' || isBlank c

def distance? (cs : List Char) : Option (Int × List Char) :=
  match cs with
  | h :: h' :: rest =>
    match rest.dropWhile isOffsetGap with
    | m :: m' :: rest =>
      if [h, h', m, m'].all Char.isDigit && m.toNat < '6'.toNat then
        let hours := NumberLiteral.readDigits [h, h']
        let minutes := NumberLiteral.readDigits [m, m']
        some ((60 * hours + minutes : Nat), rest)
      else none
    | _ => none
  | _ => none

def offset? (cs : List Char) : Option (Int × List Char) :=
  match skipBlanks cs with
  | 'Z' :: rest => some (0, rest)
  | 'z' :: rest => some (0, rest)
  | '+' :: rest => distance? rest
  | '-' :: rest => (distance? rest).map fun (n, rest) => (-n, rest)
  | '\u2212' :: rest => (distance? rest).map fun (n, rest) => (-n, rest)
  | u :: t :: c :: rest =>
    if [u, t, c].map Char.toUpper = ['U', 'T', 'C'] then some (0, rest) else none
  | _ => none

def inRange (d : Date) : Bool := decide (-262143 ≤ d.year) && decide (d.year ≤ 262142)

def toUtc? (offset : Int) (t : Instant) : Option Instant :=
  if offset.natAbs < 1440 ∧ inRange t.date then
    let minutes : Int := 60 * t.hour + t.minute - offset
    let date := if minutes < 0 then t.date.previous else if 1440 ≤ minutes then t.date.next else t.date
    let minutes := (minutes % 1440).toNat
    if inRange date then some { t with date, hour := minutes / 60, minute := minutes % 60 } else none
  else none

def parse? (text : String) : Option Instant := do
  let (date, rest) ← readDate? text.toList
  match rest with
  | separator :: rest =>
    let (hour, rest) ← twoDigits? rest
    let (minute, rest) ← twoDigits? (← expect? ':' rest)
    let (second, rest) ← twoDigits? (← expect? ':' rest)
    let (nanosecond, rest) ← fraction? rest
    let (offset, rest) ← offset? rest
    if (separator = 't' ∨ separator = 'T' ∨ separator = ' ') ∧ date.Exists ∧ hour ≤ 23 ∧ minute ≤ 59 ∧
        second ≤ 60 ∧ (skipBlanks rest).isEmpty then
      toUtc? offset ⟨date, hour, minute, second, nanosecond⟩
    else none
  | [] => none

/-! ## Writing -/

/-- Years of more or fewer than four digits carry a sign. -/
def yearText (year : Int) : List Char :=
  if 0 ≤ year ∧ year ≤ 9999 then paddedDigits 4 year.toNat
  else (if year < 0 then '-' else '+') :: paddedDigits 4 year.natAbs

def fractionText (nanosecond : Nat) : List Char :=
  if nanosecond = 0 then []
  else if nanosecond % 1000000 = 0 then '.' :: paddedDigits 3 (nanosecond / 1000000)
  else if nanosecond % 1000 = 0 then '.' :: paddedDigits 6 (nanosecond / 1000)
  else '.' :: paddedDigits 9 nanosecond

def textWith (fraction : List Char) (t : Instant) : String :=
  String.ofList <|
    yearText t.date.year ++ '-' :: paddedDigits 2 t.date.month ++ '-' :: paddedDigits 2 t.date.day ++
      'T' :: paddedDigits 2 t.hour ++ ':' :: paddedDigits 2 t.minute ++ ':' :: paddedDigits 2 t.second ++
      fraction ++ ['Z']

def text (t : Instant) : String := t.textWith (fractionText t.nanosecond)

def millisecondText (t : Instant) : String :=
  t.textWith ('.' :: paddedDigits 3 (t.nanosecond / 1000000))

end Instant

end MediaCache
