import MediaCache.Json.Number

/-!
# Tokens of JSON text

The scanner reads one character at a time and keeps the tokens read so far, so scanning `s ++ t` is
scanning `s` and then `t`. A number or a word ends at the first character that cannot belong to it.
-/

namespace MediaCache.Json

structure NumberLiteral where
  negative : Bool
  digits : Nat
  places : Nat
  exponent : Int
  isWhole : Bool
deriving DecidableEq, Repr

namespace NumberLiteral

def digitValue (c : Char) : Nat := c.toNat - '0'.toNat

def readDigits (cs : List Char) : Nat :=
  cs.foldl (fun n c => 10 * n + digitValue c) 0

def exponent? (negative : Bool) (whole places : List Char) : List Char → Option NumberLiteral
  | [] => some ⟨negative, readDigits (whole ++ places), places.length, 0, places.isEmpty⟩
  | c :: rest =>
    if c = 'e' ∨ c = 'E' then
      let (minus, digits) :=
        match rest with
        | '-' :: digits => (true, digits)
        | '+' :: digits => (false, digits)
        | digits => (false, digits)
      if digits.isEmpty ∨ !digits.all Char.isDigit then none
      else
        let n : Int := readDigits digits
        some ⟨negative, readDigits (whole ++ places), places.length, if minus then -n else n, false⟩
    else none

def ofUnsigned? (negative : Bool) (cs : List Char) : Option NumberLiteral :=
  let whole := cs.takeWhile Char.isDigit
  if whole.isEmpty ∨ (whole.head? = some '0' ∧ 1 < whole.length) then none
  else
    match cs.dropWhile Char.isDigit with
    | '.' :: rest =>
      let places := rest.takeWhile Char.isDigit
      if places.isEmpty then none
      else exponent? negative whole places (rest.dropWhile Char.isDigit)
    | rest => exponent? negative whole [] rest

def ofChars? : List Char → Option NumberLiteral
  | '-' :: cs => ofUnsigned? true cs
  | cs => ofUnsigned? false cs

/-- An integer when it is spelled as one and fits 64 bits, else the nearest double. Nothing when it is
too large for a double. -/
def number? (l : NumberLiteral) : Option Number :=
  let i : Int := if l.negative then -(l.digits : Int) else l.digits
  -- Minus zero is a double.
  let isInteger := l.isWhole && !(l.negative && l.digits == 0)
  if isInteger ∧ -0x8000000000000000 ≤ i ∧ i < 0x10000000000000000 then some (.integer i)
  else (Decimal.mk l.digits (l.exponent - l.places)).toDouble? l.negative |>.map .double

end NumberLiteral

/-! ## Strings -/

/-- A character of a string, or a code unit that is written by its number. -/
inductive Piece where
  | char (c : Char)
  | unit (code : Nat)
deriving DecidableEq, Repr

def hexValue? (c : Char) : Option Nat :=
  if c.isDigit then some (c.toNat - '0'.toNat)
  else if 'a' ≤ c ∧ c ≤ 'f' then some (c.toNat - 'a'.toNat + 10)
  else if 'A' ≤ c ∧ c ≤ 'F' then some (c.toNat - 'A'.toNat + 10)
  else none

def unescape? : Char → Option Char
  | '"' => some '"'
  | '\\' => some '\\'
  | '/' => some '/'
  | 'b' => some '\x08'
  | 'f' => some '\x0c'
  | 'n' => some '\n'
  | 'r' => some '\r'
  | 't' => some '\t'
  | _ => none

def pieces? : List Char → Option (List Piece)
  | [] => some []
  | '\\' :: 'u' :: a :: b :: c :: d :: rest => do
    let code := 4096 * (← hexValue? a) + 256 * (← hexValue? b) + 16 * (← hexValue? c) + (← hexValue? d)
    return .unit code :: (← pieces? rest)
  | '\\' :: c :: rest => do
    let plain ← unescape? c
    return .char plain :: (← pieces? rest)
  | c :: rest =>
    if c = '\\' ∨ c.toNat < 0x20 then none
    else (pieces? rest).map (.char c :: ·)

def isHighSurrogate (code : Nat) : Bool := 0xD800 ≤ code && code < 0xDC00

def isLowSurrogate (code : Nat) : Bool := 0xDC00 ≤ code && code < 0xE000

def join? : List Piece → Option (List Char)
  | [] => some []
  | .char c :: rest => (join? rest).map (c :: ·)
  | .unit high :: .unit low :: rest =>
    if isHighSurrogate high && isLowSurrogate low then
      (join? rest).map (Char.ofNat (0x10000 + (high - 0xD800) * 0x400 + (low - 0xDC00)) :: ·)
    else if isHighSurrogate high || isLowSurrogate high then none
    else (join? (.unit low :: rest)).map (Char.ofNat high :: ·)
  | .unit code :: rest =>
    if isHighSurrogate code || isLowSurrogate code then none
    else (join? rest).map (Char.ofNat code :: ·)

/-! ## The scanner -/

inductive Token where
  | beginArray
  | endArray
  | beginObject
  | endObject
  | comma
  | colon
  | null
  | bool (b : Bool)
  | number (literal : NumberLiteral)
  /-- Nothing stands for a string with half of a surrogate pair. -/
  | string (s : Option String)
deriving DecidableEq, Repr

/-- What the scanner is in the middle of. The characters read so far are kept in reverse. -/
inductive Pending where
  | nothing
  | word (seen : List Char)
  | number (seen : List Char)
  | string (seen : List Char)
  | escape (seen : List Char)
deriving Repr

structure Scanner where
  tokens : List Token
  pending : Pending

namespace Scanner

def start : Scanner := ⟨[], .nothing⟩

def push (s : Scanner) (t : Token) : Scanner := ⟨t :: s.tokens, .nothing⟩

def wordToken? : List Char → Option Token
  | ['n', 'u', 'l', 'l'] => some .null
  | ['t', 'r', 'u', 'e'] => some (.bool true)
  | ['f', 'a', 'l', 's', 'e'] => some (.bool false)
  | _ => none

/-- Ends a word or a number. A string that is still open has no end. -/
def flush? (s : Scanner) : Option Scanner :=
  match s.pending with
  | .nothing => some s
  | .word seen => (wordToken? seen.reverse).map s.push
  | .number seen => (NumberLiteral.ofChars? seen.reverse).map fun l => s.push (.number l)
  | .string _ => none
  | .escape _ => none

def isSpace (c : Char) : Bool := c == ' ' || c == '\n' || c == '\r' || c == '\t'

def isNumberChar (c : Char) : Bool :=
  c.isDigit || c == '-' || c == '+' || c == '.' || c == 'e' || c == 'E'

def begin? (s : Scanner) (c : Char) : Option Scanner :=
  match c with
  | '[' => some (s.push .beginArray)
  | ']' => some (s.push .endArray)
  | '{' => some (s.push .beginObject)
  | '}' => some (s.push .endObject)
  | ',' => some (s.push .comma)
  | ':' => some (s.push .colon)
  | '"' => some { s with pending := .string [] }
  | c =>
    if isSpace c then some { s with pending := .nothing }
    else if c.isDigit || c == '-' then some { s with pending := .number [c] }
    else if c.isLower then some { s with pending := .word [c] }
    else none

def step (s : Scanner) (c : Char) : Option Scanner :=
  match s.pending with
  | .nothing => s.begin? c
  | .word seen =>
    if c.isLower then some { s with pending := .word (c :: seen) }
    else s.flush?.bind (·.begin? c)
  | .number seen =>
    if isNumberChar c then some { s with pending := .number (c :: seen) }
    else s.flush?.bind (·.begin? c)
  | .string seen =>
    if c = '"' then
      (pieces? seen.reverse).map fun body => s.push (.string ((join? body).map String.ofList))
    else if c = '\\' then some { s with pending := .escape (c :: seen) }
    else some { s with pending := .string (c :: seen) }
  | .escape seen => some { s with pending := .string (c :: seen) }

end Scanner

def tokens? (text : List Char) : Option (List Token) :=
  (text.foldlM Scanner.step Scanner.start).bind fun s => s.flush?.map (·.tokens.reverse)

end MediaCache.Json
