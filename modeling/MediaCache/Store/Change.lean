import MediaCache.Store.Cache

/-!
# Changes and evictions

Changes apply to what is already there: an absent object, field or entry is left alone. Evicting an
object leaves the references to it behind.
-/

namespace MediaCache

inductive FieldUpdate where
  | keep
  | set (v : Json)
  | delete
deriving DecidableEq, Repr

def FieldUpdate.isChange : FieldUpdate → Bool
  | .keep => false
  | _ => true

namespace Cache

def applyToField (c : Cache) (obj : ObjectRef) (field : String) : FieldUpdate → Cache
  | .keep => c
  | .set v => c.setField obj field v
  | .delete =>
    match c.get? obj with
    | none => c
    | some record => { c with objects := c.objects.insert obj.cacheId (record.erase field) }

def fieldValue? (c : Cache) (obj : ObjectRef) (field : String) : Option Json :=
  (c.get? obj).bind (·.get? field)

def modifyField (c : Cache) (obj : ObjectRef) (field : String) (change : Json → FieldUpdate) :
    Bool × Cache :=
  match c.fieldValue? obj field with
  | none => (false, c)
  | some v => ((change v).isChange, c.applyToField obj field (change v))

def evictField (c : Cache) (obj : ObjectRef) (field : String) : Bool × Cache :=
  c.modifyField obj field fun _ => .delete

def evictObject (c : Cache) (obj : ObjectRef) : Bool × Cache :=
  if c.contains obj then
    (true, { c with
      objects := c.objects.erase obj.cacheId
      index := indexErase c.index obj.typename obj.cacheId })
  else (false, c)

/-! ## Root entries -/

def rootEntries (c : Cache) (field : String) : List (String × Json) :=
  c.root.entries.filter fun e => baseFieldName e.1 == field

def applyToEntry (c : Cache) (name : String) : FieldUpdate → Cache
  | .keep => c
  | .set v => { c with root := c.root.insert name v }
  | .delete => { c with root := c.root.erase name, selections := c.selections.erase name }

def modifyRoot (c : Cache) (field : String) (change : String → Json → FieldUpdate) : Nat × Cache :=
  let updates := (c.rootEntries field).map fun e => (e.1, change e.1 e.2)
  ((updates.filter (·.2.isChange)).length, updates.foldl (fun c u => c.applyToEntry u.1 u.2) c)

def evictRoot (c : Cache) (field : String) : Nat × Cache :=
  c.modifyRoot field fun _ _ => .delete

/-! ## The whole cache -/

/-- Protects an object from collection, stored or not. -/
def retain (c : Cache) (obj : ObjectRef) : Cache :=
  { c with retained := c.retained.add obj.cacheId }

def release (c : Cache) (obj : ObjectRef) : Cache :=
  { c with retained := c.retained.erase obj.cacheId }

def reset (c : Cache) : Cache := new c.policies

end Cache

end MediaCache
