import MediaCache.Json.Token

/-!
# TOML strings

A basic string knows escapes and a literal string does not. Either may span lines when its quote is
tripled; a line end inside is one line feed, however it is written.
-/

namespace MediaCache.Toml

open MediaCache.Json (hexValue?)

def isText (c : Char) : Bool := c == '\t' || (0x20 ≤ c.toNat && c.toNat != 0x7f)

def unescape? : Char → Option Char
  | 'b' => some '\x08'
  | 't' => some '\t'
  | 'n' => some '\n'
  | 'f' => some '\x0c'
  | 'r' => some '\r'
  | '"' => some '"'
  | '\\' => some '\\'
  | _ => none

def charOf? (code : Nat) : Option Char :=
  if code.isValidChar then some (Char.ofNat code) else none

def hexCode? (digits : List Char) : Option Nat :=
  digits.foldlM (fun n c => (hexValue? c).map (16 * n + ·)) 0

def basic? : List Char → Option (List Char × List Char)
  | [] => none
  | '"' :: rest => some ([], rest)
  | '\\' :: 'u' :: a :: b :: c :: d :: rest => do
    let char ← charOf? (← hexCode? [a, b, c, d])
    let (body, rest) ← basic? rest
    return (char :: body, rest)
  | '\\' :: 'U' :: a :: b :: c :: d :: e :: f :: g :: h :: rest => do
    let char ← charOf? (← hexCode? [a, b, c, d, e, f, g, h])
    let (body, rest) ← basic? rest
    return (char :: body, rest)
  | '\\' :: c :: rest => do
    let char ← unescape? c
    let (body, rest) ← basic? rest
    return (char :: body, rest)
  | c :: rest =>
    if isText c && c != '\\' then (basic? rest).map fun (body, rest) => (c :: body, rest) else none

def literal? : List Char → Option (List Char × List Char)
  | [] => none
  | '\'' :: rest => some ([], rest)
  | c :: rest =>
    if isText c then (literal? rest).map fun (body, rest) => (c :: body, rest) else none

/-- Whether a backslash at this point hides a line end: only blanks stand before it. -/
def hidesLineEnd : List Char → Bool
  | '\n' :: _ => true
  | '\r' :: '\n' :: _ => true
  | ' ' :: rest => hidesLineEnd rest
  | '\t' :: rest => hidesLineEnd rest
  | _ => false

/-- The body of a basic string over several lines. `skipping` is set behind a backslash that hides a
line end, up to the next character that is neither blank nor a line end. -/
def basicLines? (skipping : Bool) : List Char → Option (List Char × List Char)
  | [] => none
  | '\n' :: rest =>
    if skipping then basicLines? true rest
    else (basicLines? false rest).map fun (body, rest) => ('\n' :: body, rest)
  | '\r' :: '\n' :: rest =>
    if skipping then basicLines? true rest
    else (basicLines? false rest).map fun (body, rest) => ('\n' :: body, rest)
  -- Up to two quotes before the closing three are text.
  | '"' :: '"' :: '"' :: '"' :: '"' :: rest => some (['"', '"'], rest)
  | '"' :: '"' :: '"' :: '"' :: rest => some (['"'], rest)
  | '"' :: '"' :: '"' :: rest => some ([], rest)
  | '\\' :: 'u' :: a :: b :: c :: d :: rest => do
    let char ← charOf? (← hexCode? [a, b, c, d])
    let (body, rest) ← basicLines? false rest
    return (char :: body, rest)
  | '\\' :: 'U' :: a :: b :: c :: d :: e :: f :: g :: h :: rest => do
    let char ← charOf? (← hexCode? [a, b, c, d, e, f, g, h])
    let (body, rest) ← basicLines? false rest
    return (char :: body, rest)
  | '\\' :: c :: rest =>
    if hidesLineEnd (c :: rest) then
      if c = '\r' then
        match rest with
        | _ :: rest => basicLines? true rest
        | [] => none
      else basicLines? true rest
    else do
      let char ← unescape? c
      let (body, rest) ← basicLines? false rest
      return (char :: body, rest)
  | c :: rest =>
    if skipping && (c == ' ' || c == '\t') then basicLines? true rest
    else if isText c && c != '\\' then
      (basicLines? false rest).map fun (body, rest) => (c :: body, rest)
    else none

def literalLines? : List Char → Option (List Char × List Char)
  | [] => none
  | '\n' :: rest => (literalLines? rest).map fun (body, rest) => ('\n' :: body, rest)
  | '\r' :: '\n' :: rest => (literalLines? rest).map fun (body, rest) => ('\n' :: body, rest)
  | '\'' :: '\'' :: '\'' :: '\'' :: '\'' :: rest => some (['\'', '\''], rest)
  | '\'' :: '\'' :: '\'' :: '\'' :: rest => some (['\''], rest)
  | '\'' :: '\'' :: '\'' :: rest => some ([], rest)
  | c :: rest =>
    if isText c then (literalLines? rest).map fun (body, rest) => (c :: body, rest) else none

def dropLineEnd : List Char → List Char
  | '\n' :: rest => rest
  | '\r' :: '\n' :: rest => rest
  | cs => cs

def quoted? : List Char → Option (List Char × List Char)
  | '"' :: '"' :: '"' :: rest => basicLines? false (dropLineEnd rest)
  | '\'' :: '\'' :: '\'' :: rest => literalLines? (dropLineEnd rest)
  | '"' :: rest => basic? rest
  | '\'' :: rest => literal? rest
  | _ => none

end MediaCache.Toml
