import MediaCache.Store.Collect
import MediaCache.Update.TypeFields

/-!
# Evictions and patches

What a mutation does to the cache is put together from these. None of them does anything to data that
is not cached.
-/

namespace MediaCache

structure Options where
  collectAfterEvict : Bool := true
deriving DecidableEq, Repr

/-- The sum of a stored number and a change. It stays an integer when both are whole. A sum that leaves
64 bits is taken modulo 2^64 here; `Step.run?` does not get that far. -/
def addNumber? (v : Json) (delta : Double) : Option Json :=
  match v.asInt64?, delta.isWhole with
  | some current, true => some (.int (wrapInt64 (current + clampInt64 delta.truncate)))
  | _, _ => (v.asDouble?.bind (·.add? delta)).map fun x => .number (.double x)

namespace Cache

/-- Drops every cached result of the queries, whatever their arguments, and counts the entries. -/
def evictQueries (c : Cache) (docs : List Document) (options : Options) : Nat × Cache :=
  let (removed, evicted) := docs.foldl
    (fun (n, c) doc =>
      let (k, c) := c.evictRoot doc.rootField
      (n + k, c))
    (0, c)
  (removed, if options.collectAfterEvict then evicted.collect.2 else evicted)

def evictFields (c : Cache) (obj : ObjectRef) (names : List String) : Nat × Cache :=
  names.foldl
    (fun (n, c) name =>
      let (removed, c) := c.evictField obj name
      (if removed then n + 1 else n, c))
    (0, c)

/-- Drops the fields listed for a type from every stored object of it but the ignored one, and counts
them. Objects are found through the index. -/
def evictTypeFields (c : Cache) (fields : TypeFields) (ignore : Option ObjectRef) : Nat × Cache :=
  fields.rows.foldl
    (fun acc row =>
      (acc.2.objectsOfType row.1).foldl
        (fun (n, c) obj =>
          if ignore = some obj then (n, c)
          else
            let (k, c) := c.evictFields obj row.2
            (n + k, c))
        acc)
    (0, c)

/-- Records that the look-up of an object finds nothing, and drops the object. -/
def deleteObject (c : Cache) (obj : ObjectRef) (lookup : Document) : Cache :=
  ((c.writeRoot lookup.rootField (some (.object [("id", .string obj.id)])) .null).evictObject obj).2

/-- Appends a reference to every cached list of a query that does not hold it, and counts them. -/
def appendReference (c : Cache) (obj : ObjectRef) (list : Document) : Nat × Cache :=
  c.modifyRoot list.rootField fun _ v =>
    match v with
    | .array items =>
      if obj.toReference ∈ items then .keep else .set (.array (items ++ [obj.toReference]))
    | _ => .keep

def addToStat (c : Cache) (stat : String) (delta : Double) : Bool × Cache :=
  let (changed, c) := c.modifyRoot Document.stats.rootField fun _ v =>
    match v with
    | .object stats =>
      match (Assoc.get? stat stats).bind (addNumber? · delta) with
      | some next => .set (.object (Assoc.insert stat next stats))
      | none => .keep
    | _ => .keep
  (decide (0 < changed), c)

/-- Drops a number of the cached statistics, so that the next read of them fetches. -/
def dropStat (c : Cache) (stat : String) : Bool × Cache :=
  let (changed, c) := c.modifyRoot Document.stats.rootField fun _ v =>
    match v with
    | .object stats =>
      if Assoc.contains stat stats then .set (.object (Assoc.erase stat stats)) else .keep
    | _ => .keep
  (decide (0 < changed), c)

end Cache

end MediaCache
