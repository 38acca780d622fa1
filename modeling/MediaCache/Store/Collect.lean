import MediaCache.Store.Change

/-!
# Collection

An object is kept when it can be reached from a root entry or a retained id by following references
through stored objects.
-/

namespace MediaCache

namespace Json

mutual

def references (v : Json) : List String :=
  match v with
  | object fields =>
    match referenceId? (object fields) with
    | some id => [id]
    | none => referencesOfFields fields
  | array items => referencesOfItems items
  | _ => []

def referencesOfFields : List (String × Json) → List String
  | [] => []
  | (_, v) :: rest => references v ++ referencesOfFields rest

def referencesOfItems : List Json → List String
  | [] => []
  | v :: rest => references v ++ referencesOfItems rest

end

end Json

def Record.references (r : Record) : List String := Json.referencesOfFields r.entries

/-- Visits the members of a domain that can be reached from the pending ones. Each visit removes one
from the domain, so its size bounds the number of visits. -/
def visit (next : String → List String) : Nat → List String → List String → List String
  | 0, _, _ => []
  | fuel + 1, domain, pending =>
    match pending.dropWhile fun id => !domain.contains id with
    | [] => []
    | id :: rest => id :: visit next fuel (domain.erase id) (next id ++ rest)

structure CollectResult where
  scanned : Nat
  removed : List String
deriving DecidableEq, Repr

namespace Cache

def referencesOf (c : Cache) (id : String) : List String :=
  match c.objects.get? id with
  | some record => record.references
  | none => []

def rootReferences (c : Cache) : List String := c.retained.toList ++ c.root.references

def reachable (c : Cache) : List String :=
  visit c.referencesOf c.objects.size c.objects.keys c.rootReferences

def collect (c : Cache) : CollectResult × Cache :=
  let reached := c.reachable
  let kept := c.objects.filter fun id _ => reached.contains id
  let removed := c.objects.keys.filter fun id => !reached.contains id
  let index := (c.index.mapValues fun ids => ids.filter fun id _ => !removed.contains id).filter
    fun _ ids => !ids.isEmpty
  (⟨kept.size, removed⟩, { c with objects := kept, index := index })

end Cache

end MediaCache
