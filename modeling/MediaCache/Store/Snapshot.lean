import MediaCache.Store.Change
import MediaCache.Json.Printer
import MediaCache.Text.Quoted

/-!
# Snapshots

A snapshot holds every object under its cache id, the root under `ROOT_QUERY` and the recorded shapes.
Restoring checks every key before anything is replaced.
-/

namespace MediaCache

structure Snapshot where
  objects : SortedMap String Record
  selections : SortedMap String Shape
deriving DecidableEq

inductive SnapshotError where
  | undecodable
  | schema (e : SchemaError)
  /-- The `__typename` of an object is not the type in its cache id. Nothing stands for one that is
  no string. -/
  | typenameMismatch (id : String) (found : Option String) (expected : Typename)
deriving DecidableEq, Repr

def SnapshotError.message : SnapshotError → String
  | .undecodable => "snapshot decode error"
  | .schema e => "schema error: " ++ e.message
  | .typenameMismatch id found expected =>
    let found :=
      match found with
      | some name => "Some(" ++ quoted name ++ ")"
      | none => "None"
    "object " ++ id ++ " has __typename " ++ found ++ ", expected " ++ expected.name

namespace Snapshot

def rootKey : String := "ROOT_QUERY"

/-! ## JSON form -/

def toJson (s : Snapshot) : Json :=
  .object <| ("objects", .object (s.objects.entries.map fun e => (e.1, e.2.toJson))) ::
    (if s.selections.isEmpty then []
      else [("selections", .object (s.selections.entries.map fun e => (e.1, e.2.toJson)))])

def render (s : Snapshot) : String := s.toJson.pretty

/-- Reads an object for each key, the last of equal keys. -/
def readMap? (read : Written → Option α) (fields : List (Option String × Written)) :
    Option (SortedMap String α) := do
  let entries ← fields.mapM fun e => do return (← e.1, ← read e.2)
  return SortedMap.ofList entries

def objects? (limit : Written.Limit) : Written → Option (SortedMap String Record)
  | .object fields => do
    let inner ← Written.Limit.enter? limit
    readMap? (fun w => do
      match w, ← w.value? inner with
      | .object _, .object members => return SortedMap.ofList members
      | _, _ => none) fields
  | _ => none

def selections? (limit : Written.Limit) : Written → Option (SortedMap String Shape)
  | .object fields => do
    let inner ← Written.Limit.enter? limit
    readMap? (Shape.ofWritten? inner) fields
  | _ => none

/-- Reads an object with `objects` and perhaps `selections`, each once, or a list of them. Only these
two are read; what else is written is skipped. -/
def ofWritten? (limit : Written.Limit) : Written → Option Snapshot
  | .object fields => do
    let inner ← Written.Limit.enter? limit
    if !Written.keysReadable fields then none
    else
      let objects ← objects? inner (← (← Written.single? fields "objects"))
      match ← Written.single? fields "selections" with
      | none => return ⟨objects, ∅⟩
      | some selections => return ⟨objects, ← selections? inner selections⟩
  | .array [objects] => do
    let inner ← Written.Limit.enter? limit
    return ⟨← objects? inner objects, ∅⟩
  | .array [objects, selections] => do
    let inner ← Written.Limit.enter? limit
    return ⟨← objects? inner objects, ← selections? inner selections⟩
  | _ => none

def parse? (text : String) : Option Snapshot := (Written.parse? text).bind (ofWritten? .text)

def ofJson? (v : Json) : Option Snapshot := ofWritten? none (.ofJson v)

end Snapshot

namespace Cache

/-- All that is stored. Retained ids are no part of it. -/
def extract (c : Cache) : Snapshot :=
  ⟨c.objects.insert Snapshot.rootKey c.root, c.selections⟩

/-- Checks an object against its key and gives it its `__typename` if it has none. -/
def restoreObject (id : String) (record : Record) : Except SnapshotError (ObjectRef × Record) :=
  match ObjectRef.parse id with
  | .error e => .error (.schema e)
  | .ok obj =>
    match record.get? "__typename" with
    | none => .ok (obj, record.insert "__typename" (.string obj.typename.name))
    | some found =>
      if found = .string obj.typename.name then .ok (obj, record)
      else .error (.typenameMismatch id found.asString? obj.typename)

def restoreEntry (c : Cache) (id : String) (record : Record) : Except SnapshotError Cache :=
  if id = Snapshot.rootKey then .ok { c with root := record }
  else do
    let (obj, record) ← restoreObject id record
    return { c with
      objects := c.objects.insert id record
      index := indexAdd c.index obj.typename id }

/-- The cache with the contents of a snapshot in place of its own. The first bad key is the error. -/
def restore (c : Cache) (s : Snapshot) : Except SnapshotError Cache := do
  let restored ← s.objects.entries.foldlM (fun c e => restoreEntry c e.1 e.2) c.reset
  return { restored with selections := s.selections }

end Cache

end MediaCache
