import MediaCache.Data.SortedMap
import MediaCache.Json.Basic
import MediaCache.Schema.Typename

/-!
# Fields by type

The fields that an eviction drops from every stored object of a type.
-/

namespace MediaCache

abbrev TypeFields := SortedMap Typename (SortedSet String)

namespace TypeFields

def add (fields : TypeFields) (t : Typename) (names : List String) : TypeFields :=
  fields.insert t (((fields.get? t).getD ∅).addAll names)

def ofRows (rows : List (Typename × List String)) : TypeFields :=
  rows.foldl (fun fields row => fields.add row.1 row.2) ∅

def union (a b : TypeFields) : TypeFields :=
  b.entries.foldl (fun fields e => fields.add e.1 e.2.toList) a

def covers (fields : TypeFields) (t : Typename) (name : String) : Bool :=
  match fields.get? t with
  | some names => names.contains name
  | none => false

def rows (fields : TypeFields) : List (Typename × List String) :=
  fields.entries.map fun e => (e.1, e.2.toList)

end TypeFields

end MediaCache
