import MediaCache.Schema.Named

/-!
# References to stored objects

An object is known by its type and its id. In stored data a reference stands for it: an object whose
only member is `__ref`, holding the cache id `<Typename>:<id>`.
-/

namespace MediaCache

def splitFirst? (c : Char) (s : List Char) : Option (List Char × List Char) :=
  match s.dropWhile (· != c) with
  | [] => none
  | _ :: rest => some (s.takeWhile (· != c), rest)

structure ObjectRef where
  typename : Typename
  id : String
deriving DecidableEq, Repr

/-- The text of an id: a string as it is, a number as documents write it. -/
def idText? : Json → Option String
  | .string s => some s
  | .number n => some (String.ofList n.write)
  | _ => none

def referenceId? : Json → Option String
  | .object [(key, .string id)] => if key = "__ref" then some id else none
  | _ => none

def isReference (v : Json) : Bool := (referenceId? v).isSome

def reference (cacheId : String) : Json := .object [("__ref", .string cacheId)]

namespace ObjectRef

def cacheId (o : ObjectRef) : String := o.typename.name ++ ":" ++ o.id

def parse (cacheId : String) : Except SchemaError ObjectRef :=
  match splitFirst? ':' cacheId.toList with
  | none => .error (.malformedCacheId cacheId)
  -- The id behind the first colon may not be empty.
  | some (_, []) => .error (.malformedCacheId cacheId)
  | some (typename, id) => do return ⟨← Typename.parse (String.ofList typename), String.ofList id⟩

def ofCacheId? (cacheId : String) : Option ObjectRef := (parse cacheId).toOption

/-- The object that data describes inline: a known `__typename` and an `id` that is a string or a
number. -/
def identify? (v : Json) : Option ObjectRef := do
  let typename ← (← v.field? "__typename").asString? >>= Typename.ofName?
  let id ← idText? (← v.field? "id")
  return ⟨typename, id⟩

def toReference (o : ObjectRef) : Json := reference o.cacheId

def toJson (o : ObjectRef) : Json :=
  .object [("id", .string o.id), ("typename", .string o.typename.name)]

def ofJson? : Json → Option ObjectRef
  | .object fields => do
    return ⟨← Json.Fields.required? fields "typename" Typename.ofJson?,
      ← Json.Fields.required? fields "id" Json.asString?⟩
  | .array [typename, id] => do return ⟨← Typename.ofJson? typename, ← id.asString?⟩
  | _ => none

def ofReference? (v : Json) : Option ObjectRef := (referenceId? v).bind ofCacheId?

end ObjectRef

end MediaCache
