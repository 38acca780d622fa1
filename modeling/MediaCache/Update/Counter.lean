import MediaCache.Store.Read
import MediaCache.Update.Eviction
import MediaCache.Update.Impact

/-!
# O-counters

The counter of a scene or an image is shared by its performers and the total in the statistics. When
the object is stored they all take the same change. When it is not, nobody can tell which performers
changed, so their counters and the total are dropped and fetched again; no number is guessed.
-/

namespace MediaCache

inductive CounterTarget where
  | scene
  | image
deriving DecidableEq, Repr

inductive CounterOp where
  | increment
  | decrement
  | reset
deriving DecidableEq, Repr

namespace CounterTarget

def family : CounterTarget → Family
  | scene => .scene
  | image => .image

def typename (t : CounterTarget) : Typename := t.family.typename

def fragment (t : CounterTarget) : Fragment := ⟨t.typename, ["id", "o_counter", "performers"]⟩

end CounterTarget

/-- The change of a counter with the given value, modulo 2^64. -/
def CounterOp.delta (op : CounterOp) (old : Int) : Int :=
  match op with
  | increment => 1
  | decrement => -1
  | reset => wrapInt64 (-old)

inductive CounterPatch where
  /-- The change went to the total and to each of `performers`. The counters of the performers in
  `unresolved` were no numbers and were dropped. -/
  | resident (delta : Int) (performers unresolved : List ObjectRef)
  /-- The object was not stored, and the counters of all performers and the total were dropped. -/
  | evicted
deriving DecidableEq, Repr

namespace Cache

def totalCount : String := "total_o_count"

def counterField : String := "o_counter"

structure PerformerCounts where
  cache : Cache
  patched : List ObjectRef := []
  unresolved : List ObjectRef := []

/-- Adds to the counter of one performer, or drops it when it is no number. -/
def patchPerformer (delta : Double) (counts : PerformerCounts) (performer : ObjectRef) :
    PerformerCounts :=
  match counts.cache.fieldValue? performer counterField with
  | none => counts
  | some v =>
    match addNumber? v delta with
    | some next =>
      { counts with
        cache := counts.cache.applyToField performer counterField (.set next)
        patched := counts.patched ++ [performer] }
    | none =>
      { counts with
        cache := counts.cache.applyToField performer counterField .delete
        unresolved := counts.unresolved ++ [performer] }

/-- The counter in a fragment, where anything but an integer counts as none. -/
def countIn (fragment : Record) : Int := ((fragment.get? counterField).bind Json.asInt64?).getD 0

def performersIn (fragment : Record) : List ObjectRef :=
  match fragment.get? "performers" with
  | some (.array items) => items.filterMap ObjectRef.ofReference?
  | _ => []

def spreadCounter (c : Cache) (target : CounterTarget) (obj : ObjectRef) (op : CounterOp) :
    CounterPatch × Cache :=
  match c.readFragment obj target.fragment with
  | some fragment =>
    let delta := op.delta (countIn fragment)
    let counts := (performersIn fragment).foldl (patchPerformer (Double.ofInt delta)) { cache := c }
    (.resident delta counts.patched counts.unresolved,
      (counts.cache.addToStat totalCount (Double.ofInt delta)).2)
  | none =>
    let dropped := (c.evictTypeFields (TypeFields.ofRows [(.performer, [counterField])]) none).2
    (.evicted, (dropped.dropStat totalCount).2)

/-- Takes over the counter that the server returned. -/
def patchCounter (c : Cache) (target : CounterTarget) (id : String) (op : CounterOp) (value : Int)
    (options : Options) : CounterPatch × Cache :=
  let obj : ObjectRef := ⟨target.typename, id⟩
  let (patch, spread) := c.spreadCounter target obj op
  let written := (spread.writeField obj counterField (.int value)).2
  (patch, (written.evictQueries (Impact.of target.family).counterQueries options).2)

end Cache

end MediaCache
