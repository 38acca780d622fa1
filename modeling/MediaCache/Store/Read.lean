import MediaCache.Store.Cache

/-!
# Reads

A read follows references under the shape that was recorded when the data was written, and is missing
when any selected field is. References to objects that are gone are dropped from lists; elsewhere the
policy of the field decides.
-/

namespace MediaCache

inductive ReadOutcome where
  | hit (v : Json)
  | missing
deriving DecidableEq, Repr

namespace ReadOutcome

def ofOption : Option Json → ReadOutcome
  | some v => hit v
  | none => missing

def isMissing : ReadOutcome → Bool
  | hit _ => false
  | missing => true

end ReadOutcome

structure Fragment where
  on : Typename
  fields : List String
deriving DecidableEq, Repr

namespace Cache

def canRead (c : Cache) (v : Json) : Bool :=
  match referenceId? v with
  | none => true
  | some id => c.objects.contains id

/-- The policy of a field, where no parent stands for the root. -/
def policyOf (c : Cache) (parent : Option Typename) (field : String) : Option FieldPolicy :=
  match parent with
  | some t => c.policies.field t field
  | none => c.policies.root field

def readDangling (c : Cache) (parent : Option Typename) (field : String) : Option Json :=
  match c.policyOf parent field with
  | some .danglingNull => some .null
  | _ => none

def typenameOf? (fields : Json.Fields) : Option Typename := do
  let t ← Assoc.get? "__typename" fields
  Typename.ofName? (← t.asString?)

mutual

/-- Reads data whose parts were not recorded: an object is read as it is stored. -/
def readUntracked (c : Cache) (parent : Option Typename) (field : String) (v : Json) : Option Json :=
  match v with
  | .array items => (readUntrackedItems c parent field items).map .array
  | v =>
    match referenceId? v with
    | none => some v
    | some id =>
      match c.objects.get? id with
      | some record => some record.toJson
      | none => c.readDangling parent field

def readUntrackedItems (c : Cache) (parent : Option Typename) (field : String) :
    List Json → Option (List Json)
  | [] => some []
  | v :: rest =>
    if c.canRead v then
      (readUntracked c parent field v).bind fun v =>
        (readUntrackedItems c parent field rest).map (v :: ·)
    else readUntrackedItems c parent field rest

end

mutual

def readValue (c : Cache) (parent : Option Typename) (field : String) (v : Json) :
    Shape → Option Json
  | .leaf => c.readUntracked parent field v
  | .object selected =>
    match v with
    | .array _ => c.readUntracked parent field v
    | .object fields =>
      match referenceId? v with
      | none => readSelected c fields selected
      | some id =>
        match c.objects.get? id with
        | some record => readSelected c record.entries selected
        | none => c.readDangling parent field
    | v => some v
  | .list element =>
    match v with
    | .array items =>
      ((items.filter c.canRead).mapM fun item => readValue c parent field item element).map .array
    | v => c.readUntracked parent field v

/-- Reads the selected fields of an object, and its `__typename` if it has one. -/
def readSelected (c : Cache) (fields : Json.Fields) (selected : List (String × Shape)) : Option Json :=
  let typed :=
    match Assoc.get? "__typename" fields with
    | some t => [("__typename", t)]
    | none => []
  (readFields c (typenameOf? fields) fields selected typed).map .object

def readFields (c : Cache) (parent : Option Typename) (fields : Json.Fields) :
    List (String × Shape) → Json.Fields → Option Json.Fields
  | [], read => some read
  | (key, shape) :: rest, read =>
    (Assoc.get? key fields).bind fun stored =>
      (readValue c parent key stored shape).bind fun v =>
        readFields c parent fields rest (Assoc.insert key v read)

end

def fallback? (c : Cache) (typename : Typename) (args : Option Json) : Option ObjectRef := do
  let id ← idText? (← (← args).field? "id")
  let obj : ObjectRef := ⟨typename, id⟩
  if c.contains obj then some obj else none

def readRoot (c : Cache) (field : String) (args : Option Json) : ReadOutcome :=
  let name := storeFieldName field args
  let shape := (c.selections.get? name).getD .leaf
  let read (v : Json) : ReadOutcome := .ofOption (c.readValue none field v shape)
  let stored := c.root.get? name
  match c.policies.root field with
  | some (.readReference typename) =>
    match stored.filter c.canRead with
    | some v => read v
    | none =>
      match c.fallback? typename args with
      | some obj => read obj.toReference
      | none => .missing
  | some .danglingNull =>
    match stored with
    | none => .missing
    | some v => if c.canRead v then read v else .hit .null
  | none =>
    match stored with
    | none => .missing
    | some v => read v

def readQuery (c : Cache) (doc : Document) (args : Option Json) : ReadOutcome :=
  c.readRoot doc.rootField args

/-- Reads one field of a stored object without following references. -/
def readField (c : Cache) (obj : ObjectRef) (field : String) : ReadOutcome :=
  match (c.get? obj).bind (·.get? field) with
  | none => .missing
  | some v =>
    if c.canRead v then .hit v
    else
      match c.policies.field obj.typename field with
      | some .danglingNull => .hit .null
      | _ => .missing

def readFragment (c : Cache) (obj : ObjectRef) (fragment : Fragment) : Option Record :=
  if obj.typename = fragment.on then do
    let record ← c.get? obj
    let fields ← fragment.fields.mapM fun f => (record.get? f).map (f, ·)
    return SortedMap.ofList fields
  else none

end Cache

end MediaCache
