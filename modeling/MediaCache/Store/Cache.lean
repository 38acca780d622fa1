import MediaCache.Data.SortedMap
import MediaCache.Schema.Document
import MediaCache.Store.FieldName
import MediaCache.Store.Policy
import MediaCache.Store.Shape

/-!
# The cache and its writes

Data is stored in two parts. Each object of a known type with an id goes into `objects` under its
cache id, and a reference takes its place in the data around it. What is left of a query result goes
into `root`, with its shape in `selections`.

`normalized` is the data with references in place of objects and `entities` lists the objects in the
order they are stored, inner ones first. Neither looks at the cache.
-/

namespace MediaCache

abbrev Record := SortedMap String Json

def Record.toJson (r : Record) : Json := .object r.entries

structure Cache where
  policies : Policies
  root : Record := ∅
  objects : SortedMap String Record := ∅
  index : SortedMap Typename (SortedSet String) := ∅
  selections : SortedMap String Shape := ∅
  /-- Cache ids that collection keeps. -/
  retained : SortedSet String := ∅

/-! ## Splitting data into objects -/

namespace Json

mutual

/-- The data with a reference in place of each object. -/
def normalized (v : Json) : Json :=
  match v with
  | object fields =>
    if isReference (object fields) then object fields
    else
      match ObjectRef.identify? (object fields) with
      | some obj => obj.toReference
      | none => object (normalizedFields fields)
  | array items => array (normalizedItems items)
  | v => v

def normalizedFields : List (String × Json) → List (String × Json)
  | [] => []
  | (key, v) :: rest => (key, normalized v) :: normalizedFields rest

def normalizedItems : List Json → List Json
  | [] => []
  | v :: rest => normalized v :: normalizedItems rest

end

mutual

/-- The objects in the data, each with its own normalized fields. An object comes after the objects
inside it. -/
def entities (v : Json) : List (ObjectRef × Json.Fields) :=
  match v with
  | object fields =>
    if isReference (object fields) then []
    else
      match ObjectRef.identify? (object fields) with
      | some obj => entitiesOfFields fields ++ [(obj, normalizedFields fields)]
      | none => entitiesOfFields fields
  | array items => entitiesOfItems items
  | _ => []

def entitiesOfFields : List (String × Json) → List (ObjectRef × Json.Fields)
  | [] => []
  | (_, v) :: rest => entities v ++ entitiesOfFields rest

def entitiesOfItems : List Json → List (ObjectRef × Json.Fields)
  | [] => []
  | v :: rest => entities v ++ entitiesOfItems rest

end

end Json

namespace Cache

def new (policies : Policies) : Cache := { policies }

instance : Inhabited Cache := ⟨new .standard⟩

def size (c : Cache) : Nat := c.objects.size

def isEmpty (c : Cache) : Bool := c.objects.isEmpty && c.root.isEmpty

def get? (c : Cache) (obj : ObjectRef) : Option Record := c.objects.get? obj.cacheId

def contains (c : Cache) (obj : ObjectRef) : Bool := c.objects.contains obj.cacheId

def indexed (c : Cache) (t : Typename) : List String :=
  match c.index.get? t with
  | some ids => ids.toList
  | none => []

def objectsOfType (c : Cache) (t : Typename) : List ObjectRef :=
  (c.indexed t).filterMap ObjectRef.ofCacheId?

def countOfType (c : Cache) (t : Typename) : Nat := (c.indexed t).length

/-! ## The index -/

def indexAdd (index : SortedMap Typename (SortedSet String)) (t : Typename) (id : String) :
    SortedMap Typename (SortedSet String) :=
  index.insert t (((index.get? t).getD ∅).add id)

def indexErase (index : SortedMap Typename (SortedSet String)) (t : Typename) (id : String) :
    SortedMap Typename (SortedSet String) :=
  match index.get? t with
  | none => index
  | some ids =>
    let left := ids.erase id
    if left.isEmpty then index.erase t else index.insert t left

/-- The cache ids grouped by their types, unless one of them is no cache id. -/
def buildIndex? (ids : List String) : Option (SortedMap Typename (SortedSet String)) :=
  ids.foldlM (fun index id => (ObjectRef.ofCacheId? id).map fun obj => indexAdd index obj.typename id) ∅

def indexIsExact (c : Cache) : Bool := buildIndex? c.objects.keys == some c.index

/-! ## Writes -/

/-- Overwrites the fields of an object one by one, storing it first if it is new. -/
def mergeObject (c : Cache) (obj : ObjectRef) (fields : Json.Fields) : Cache :=
  let id := obj.cacheId
  let present := (c.objects.get? id).getD (SortedMap.ofList [("__typename", .string obj.typename.name)])
  { c with
    objects := c.objects.insert id (present.insertAll fields)
    index := indexAdd c.index obj.typename id }

def storeEntities (c : Cache) (v : Json) : Cache :=
  v.entities.foldl (fun c e => c.mergeObject e.1 e.2) c

/-- Stores an object and the objects inside it. Data that is no object is not stored. -/
def writeObject (c : Cache) (v : Json) : Option ObjectRef × Cache :=
  match ObjectRef.identify? v with
  | some obj => (some obj, c.storeEntities v)
  | none => (none, c)

def writeRoot (c : Cache) (field : String) (args : Option Json) (data : Json) : Cache :=
  let name := storeFieldName field args
  let stored := c.storeEntities data
  { stored with
    selections := stored.selections.insert name (Shape.ofData data)
    root := stored.root.insert name data.normalized }

def writeQuery (c : Cache) (doc : Document) (args : Option Json) (data : Json) : Cache :=
  c.writeRoot doc.rootField args data

def setField (c : Cache) (obj : ObjectRef) (field : String) (v : Json) : Cache :=
  match c.get? obj with
  | none => c
  | some record => { c with objects := c.objects.insert obj.cacheId (record.insert field v) }

/-- Overwrites one field of an object that is already stored, and tells whether it is. -/
def writeField (c : Cache) (obj : ObjectRef) (field : String) (v : Json) : Bool × Cache :=
  if c.contains obj then (true, (c.storeEntities v).setField obj field v.normalized)
  else (false, c)

end Cache

end MediaCache
