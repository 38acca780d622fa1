import MediaCache.Json.Basic

/-!
# Printing JSON

Members are printed in the order of their list. The pretty form puts each item on a line of its own,
two spaces deeper than its bracket.
-/

namespace MediaCache.Json

def hexDigit (n : Nat) : Char := if n < 10 then Char.ofNat (48 + n) else Char.ofNat (87 + n)

def escape (c : Char) : List Char :=
  match c with
  | '"' => ['\\', '"']
  | '\\' => ['\\', '\\']
  | '\x08' => ['\\', 'b']
  | '\x0c' => ['\\', 'f']
  | '\n' => ['\\', 'n']
  | '\r' => ['\\', 'r']
  | '\t' => ['\\', 't']
  | c =>
    if c.toNat < 0x20 then ['\\', 'u', '0', '0', hexDigit (c.toNat / 16), hexDigit (c.toNat % 16)]
    else [c]

def quote (s : String) : List Char := '"' :: s.toList.flatMap escape ++ ['"']

structure Layout where
  newline : Nat → List Char
  colon : List Char

def Layout.compact : Layout := ⟨fun _ => [], [':']⟩

def Layout.pretty : Layout := ⟨fun depth => '\n' :: List.replicate (2 * depth) ' ', [':', ' ']⟩

mutual

def write (layout : Layout) (depth : Nat) : Json → List Char
  | null => ['n', 'u', 'l', 'l']
  | bool true => ['t', 'r', 'u', 'e']
  | bool false => ['f', 'a', 'l', 's', 'e']
  | number n => n.write
  | string s => quote s
  | array [] => ['[', ']']
  | array (v :: rest) =>
    '[' :: layout.newline (depth + 1) ++ write layout (depth + 1) v ++ writeItems layout (depth + 1) rest ++
      layout.newline depth ++ [']']
  | object [] => ['{', '}']
  | object ((key, v) :: rest) =>
    '{' :: layout.newline (depth + 1) ++ quote key ++ layout.colon ++ write layout (depth + 1) v ++
      writeFields layout (depth + 1) rest ++ layout.newline depth ++ ['}']

def writeItems (layout : Layout) (depth : Nat) : List Json → List Char
  | [] => []
  | v :: rest => ',' :: layout.newline depth ++ write layout depth v ++ writeItems layout depth rest

def writeFields (layout : Layout) (depth : Nat) : List (String × Json) → List Char
  | [] => []
  | (key, v) :: rest =>
    ',' :: layout.newline depth ++ quote key ++ layout.colon ++ write layout depth v ++
      writeFields layout depth rest

end

def compact (v : Json) : String := String.ofList (write .compact 0 v)

def pretty (v : Json) : String := String.ofList (write .pretty 0 v)

end MediaCache.Json
