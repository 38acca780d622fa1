import MediaCache.Client.Transport
import MediaCache.Schema.Event
import MediaCache.Update.Overflow

/-!
# The service

One cache in front of one transport. Queries are answered from the cache when it has them. After a
mutation the cache is brought up to date, and each watched query that went missing is asked again.
-/

namespace MediaCache

inductive ServiceError where
  | transport (e : TransportError)
  | unknownWatch (id : Nat)
deriving DecidableEq, Repr

def watchText (id : Nat) : String := "#" ++ String.ofList (Nat.toDigits 10 id)

def ServiceError.message : ServiceError → String
  | .transport e => "transport error: " ++ e.message
  | .unknownWatch id => "unknown watch " ++ watchText id

structure Watch where
  doc : Document
  args : Option Json
deriving DecidableEq, Repr

structure Refresh where
  refetched : List Nat := []
  /-- These could not be fetched and stay missing. -/
  stale : List Nat := []
deriving DecidableEq, Repr

structure MutationReport where
  outcome : Outcome
  refresh : Refresh
deriving DecidableEq, Repr

structure EventReport where
  reset : Bool := false
  refresh : Refresh := {}
deriving DecidableEq, Repr

structure Service (σ : Type) where
  transport : Transport σ
  server : σ
  cache : Cache
  options : Options := {}
  watches : SortedMap Nat Watch := ∅
  /-- A 64-bit number, of which no run of calls gets near the end. -/
  nextWatch : Nat := 1

namespace Service

variable {σ : Type}

def fetch (s : Service σ) (doc : Document) (args : Option Json) :
    Except ServiceError Json × Service σ :=
  match s.transport.query s.server doc args with
  | (.ok data, server) => (.ok data, { s with server, cache := s.cache.writeQuery doc args data })
  | (.error e, server) => (.error (.transport e), { s with server })

def query (s : Service σ) (doc : Document) (args : Option Json) :
    Except ServiceError Json × Service σ :=
  match s.cache.readQuery doc args with
  | .hit data => (.ok data, s)
  | .missing => s.fetch doc args

/-- Loads a query and keeps it fresh from then on. A query that cannot be loaded is not watched. -/
def watch (s : Service σ) (doc : Document) (args : Option Json) :
    Except ServiceError (Nat × Json) × Service σ :=
  match s.query doc args with
  | (.ok data, s) =>
    (.ok (s.nextWatch, data),
      { s with
        watches := s.watches.insert s.nextWatch ⟨doc, args⟩
        nextWatch := s.nextWatch + 1 })
  | (.error e, s) => (.error e, s)

def unwatch (s : Service σ) (id : Nat) : Except ServiceError Unit × Service σ :=
  if s.watches.contains id then (.ok (), { s with watches := s.watches.erase id })
  else (.error (.unknownWatch id), s)

def missingWatches (s : Service σ) : List (Nat × Watch) :=
  s.watches.entries.filter fun e => (s.cache.readQuery e.2.doc e.2.args).isMissing

def refreshWatch (acc : Refresh × Service σ) (w : Nat × Watch) : Refresh × Service σ :=
  match acc.2.fetch w.2.doc w.2.args with
  | (.ok _, s) => ({ acc.1 with refetched := acc.1.refetched ++ [w.1] }, s)
  | (.error _, s) => ({ acc.1 with stale := acc.1.stale ++ [w.1] }, s)

def refreshWatches (s : Service σ) : Refresh × Service σ :=
  s.missingWatches.foldl refreshWatch ({}, s)

/-- Sends a mutation and brings the cache up to date. When it cannot be sent the cache stays as it
is. -/
def mutate (s : Service σ) (now : String) (m : Mutation) :
    Except ServiceError MutationReport × Service σ :=
  match s.transport.mutate s.server m with
  | (.error e, server) => (.error (.transport e), { s with server })
  | (.ok result, server) =>
    let result := if result.isNull then none else some result
    let (outcome, cache) := s.cache.applyMutation s.options now m result
    let (refresh, s) := refreshWatches { s with server, cache }
    (.ok ⟨outcome, refresh⟩, s)

/-- `mutate`, unless bringing the cache up to date needs a sum that leaves 64 bits. -/
def mutate? (s : Service σ) (now : String) (m : Mutation) :
    Option (Except ServiceError MutationReport × Service σ) :=
  match s.transport.mutate s.server m with
  | (.error e, server) => some (.error (.transport e), { s with server })
  | (.ok result, server) =>
    let result := if result.isNull then none else some result
    (s.cache.applyMutation? s.options now m result).map fun applied =>
      let (refresh, s) := refreshWatches { s with server, cache := applied.2 }
      (.ok ⟨applied.1, refresh⟩, s)

/-- A completed scan drops the whole cache and fetches every watched query. Other events change
nothing. -/
def handleEvent (s : Service σ) (event : ServerEvent) : EventReport × Service σ :=
  if event.resetsCache then
    let (refresh, s) := refreshWatches { s with cache := s.cache.reset }
    (⟨true, refresh⟩, s)
  else ({}, s)

end Service

end MediaCache
