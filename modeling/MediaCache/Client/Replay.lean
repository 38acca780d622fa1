import MediaCache.Client.Service
import MediaCache.Store.Snapshot
import MediaCache.Text.Blank
import MediaCache.Text.File
import MediaCache.Text.Lines

/-!
# Replay

A log has one completed mutation in each line. Replaying it over a snapshot sends every mutation to a
scripted server that answers with the recorded result. The first line that cannot be carried out ends
the replay, and nothing is left of it.
-/

namespace MediaCache

inductive ReplayError where
  | snapshotUnreadable (e : TextError)
  | snapshotUndecodable
  | snapshotRefused (e : SnapshotError)
  | logUnreadable (e : TextError)
  /-- Lines are counted from 1, blank ones included. -/
  | invalidRecord (line : Nat)
  | mutationFailed (line : Nat) (e : ServiceError)
  /-- A number would leave 64 bits. -/
  | overflow (line : Nat)
deriving DecidableEq, Repr

def ReplayError.message (snapshotPath logPath : String) : ReplayError → String
  | .snapshotUnreadable e => "Error reading snapshot " ++ snapshotPath ++ ": " ++ e.message
  | .snapshotUndecodable =>
    "Error reading snapshot " ++ snapshotPath ++ ": " ++ SnapshotError.undecodable.message
  | .snapshotRefused e => "Error restoring snapshot: " ++ e.message
  | .logUnreadable e => "Error reading log " ++ logPath ++ ": " ++ e.message
  | .invalidRecord line => logPath ++ ":" ++ toString line ++ ": invalid record"
  | .mutationFailed line e => logPath ++ ":" ++ toString line ++ ": " ++ e.message
  | .overflow line => logPath ++ ":" ++ toString line ++ ": a number does not fit 64 bits"

namespace Replay

def start (snapshot : String) : Except ReplayError Cache :=
  match Snapshot.parse? snapshot with
  | none => .error .snapshotUndecodable
  | some snapshot =>
    match (Cache.new .standard).restore snapshot with
    | .error e => .error (.snapshotRefused e)
    | .ok cache => .ok cache

def record (now : String) (line : Nat) (s : Service Script) (r : MutationRecord) :
    Except ReplayError (Service Script) :=
  let s := { s with server := s.server.pushResult (r.result.getD .null) }
  match s.mutate? now r.mutation with
  | none => .error (.overflow line)
  | some (.error e, _) => .error (.mutationFailed line e)
  | some (.ok _, s) => .ok s

/-- Carries out a line, given with its number. A blank line does nothing. -/
def line (now : String) (s : Service Script) (l : String × Nat) : Except ReplayError (Service Script) :=
  if isBlankText l.1 then .ok s
  else
    match MutationRecord.parse? l.1 with
    | none => .error (.invalidRecord l.2)
    | some r => record now l.2 s r

def log (options : Options) (now : String) (cache : Cache) (text : String) :
    Except ReplayError Snapshot := do
  let service : Service Script := { transport := Script.transport, server := {}, cache, options }
  let service ← ((lines text).zipIdx 1).foldlM (line now) service
  return service.cache.extract

end Replay

def replay (options : Options) (now snapshot text : String) : Except ReplayError Snapshot := do
  Replay.log options now (← Replay.start snapshot) text

/-- The snapshot after a log, from two files. The snapshot is restored before the log is read. -/
def replayFiles (options : Options) (now : String) (snapshot log : FileContent) :
    Except ReplayError Snapshot := do
  let cache ← Replay.start (← snapshot.text.mapError .snapshotUnreadable)
  Replay.log options now cache (← log.text.mapError .logUnreadable)

end MediaCache
