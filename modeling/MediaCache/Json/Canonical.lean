import MediaCache.Json.Printer

/-!
# Canonical JSON

One text for each value: members sorted by the UTF-16 units of their keys, no white space, and
numbers written as the shortest text of a double.
-/

namespace MediaCache.Json

def units16 (c : Char) : List Nat :=
  if c.toNat < 0x10000 then [c.toNat]
  else [0xD800 + (c.toNat - 0x10000) / 0x400, 0xDC00 + (c.toNat - 0x10000) % 0x400]

def sortKey (s : String) : List Nat := s.toList.flatMap units16

mutual

def canonical : Json → List Char
  | number n => n.writeCanonical
  | array [] => ['[', ']']
  | array (v :: rest) => '[' :: canonical v ++ canonicalItems rest ++ [']']
  | object fields =>
    -- The order is given by name: other orders on lists may be in scope.
    let written := (canonicalFields fields).mergeSort fun a b =>
      (List.decidableLE (sortKey a.1) (sortKey b.1)).decide
    '{' :: ((written.map (·.2)).intersperse [',']).flatten ++ ['}']
  | v => write .compact 0 v

def canonicalItems : List Json → List Char
  | [] => []
  | v :: rest => ',' :: canonical v ++ canonicalItems rest

def canonicalFields : List (String × Json) → List (String × List Char)
  | [] => []
  | (key, v) :: rest => (key, quote key ++ ':' :: canonical v) :: canonicalFields rest

end

end MediaCache.Json
