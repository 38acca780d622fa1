import MediaCache.Json.Decode

/-!
# Events pushed by the server
-/

namespace MediaCache

inductive ServerEvent where
  /-- A library scan or clean has ended. Any number of rows may have changed. -/
  | scanComplete
  | jobUpdate (jobId status : String) (progress : Option Double)
  | log (level message : String)
deriving DecidableEq, Repr

namespace ServerEvent

def resetsCache : ServerEvent → Bool
  | scanComplete => true
  | _ => false

def toJson : ServerEvent → Json
  | scanComplete => .object [("event", .string "scan_complete")]
  | jobUpdate jobId status progress =>
    .object <| [("event", .string "job_update"), ("job_id", .string jobId)] ++
      (match progress with
        | some x => [("progress", .number (.double x))]
        | none => []) ++
      [("status", .string status)]
  | log level message =>
    .object [("event", .string "log"), ("level", .string level), ("message", .string message)]

def memberNames : String → List String
  | "job_update" => ["job_id", "status", "progress"]
  | "log" => ["level", "message"]
  | _ => []

def ofMembers? (tag : String) (members : Json.Fields) : Option ServerEvent :=
  match tag with
  | "scan_complete" => some scanComplete
  | "job_update" => do
    return jobUpdate (← members.required? "job_id" Json.asString?)
      (← members.required? "status" Json.asString?) (← members.optional? "progress" Json.asDouble?)
  | "log" => do
    return log (← members.required? "level" Json.asString?)
      (← members.required? "message" Json.asString?)
  | _ => none

/-- Reads an object with the tag under `event`, or a list of the tag and the members in order. A member
of the event may be written once only. -/
def ofWritten? (limit : Written.Limit) (w : Written) : Option ServerEvent := do
  match w, ← w.value? limit with
  | .object fields, .object members =>
    let tag ← (← (← Written.single? fields "event")).value? limit >>= Json.asString?
    if (memberNames tag).all fun key => (Written.single? fields key).isSome then
      ofMembers? tag members
    else none
  | .array _, .array (.string tag :: items) =>
    let names := memberNames tag
    if items.length ≤ names.length then ofMembers? tag (names.zip items) else none
  | _, _ => none

def parse? (text : String) : Option ServerEvent := (Written.parse? text).bind (ofWritten? .text)

def ofJson? (v : Json) : Option ServerEvent := ofWritten? none (.ofJson v)

end ServerEvent

end MediaCache
