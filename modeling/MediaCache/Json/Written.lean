import MediaCache.Json.Basic
import MediaCache.Json.Token

/-!
# JSON as written

The tree of a text before its values are read: members keep their order and may repeat, and a number
or a string that stands for no value is kept as nothing. Reading a value from it is strict; skipping
over it is not. `limit` bounds how many brackets may be open at once.
-/

namespace MediaCache

inductive Written where
  | null
  | bool (b : Bool)
  | number (n : Option Number)
  | string (s : Option String)
  | array (items : List Written)
  | object (fields : List (Option String × Written))
deriving Inhabited

namespace Written

/-! ## From tokens -/

inductive Frame where
  | array (items : List Written)
  | object (fields : List (Option String × Written)) (key : Option String)

inductive Expected where
  | value
  | valueOrEnd
  | keyOrEnd (fields : List (Option String × Written))
  | key (fields : List (Option String × Written))
  | colon (fields : List (Option String × Written)) (key : Option String)
  | separatorOrEnd
  | done (v : Written)

structure Progress where
  frames : List Frame
  expected : Expected

namespace Progress

def complete (v : Written) : List Frame → Progress
  | [] => ⟨[], .done v⟩
  | .array items :: rest => ⟨.array (v :: items) :: rest, .separatorOrEnd⟩
  | .object fields key :: rest => ⟨.object ((key, v) :: fields) none :: rest, .separatorOrEnd⟩

def beginValue? (frames : List Frame) : Json.Token → Option Progress
  | .null => some (complete null frames)
  | .bool b => some (complete (bool b) frames)
  | .number l => some (complete (number l.number?) frames)
  | .string s => some (complete (string s) frames)
  | .beginArray => some ⟨.array [] :: frames, .valueOrEnd⟩
  | .beginObject => some ⟨frames, .keyOrEnd []⟩
  | _ => none

def step (p : Progress) (t : Json.Token) : Option Progress :=
  match p.expected, t with
  | .value, t => beginValue? p.frames t
  | .valueOrEnd, .endArray =>
    match p.frames with
    | .array items :: rest => some (complete (array items.reverse) rest)
    | _ => none
  | .valueOrEnd, t => beginValue? p.frames t
  | .keyOrEnd fields, .endObject => some (complete (object fields.reverse) p.frames)
  | .keyOrEnd fields, .string key => some ⟨p.frames, .colon fields key⟩
  | .key fields, .string key => some ⟨p.frames, .colon fields key⟩
  | .colon fields key, .colon => some ⟨.object fields key :: p.frames, .value⟩
  | .separatorOrEnd, .comma =>
    match p.frames with
    | .array _ :: _ => some ⟨p.frames, .value⟩
    | .object fields _ :: rest => some ⟨rest, .key fields⟩
    | [] => none
  | .separatorOrEnd, .endArray =>
    match p.frames with
    | .array items :: rest => some (complete (array items.reverse) rest)
    | _ => none
  | .separatorOrEnd, .endObject =>
    match p.frames with
    | .object fields _ :: rest => some (complete (object fields.reverse) rest)
    | _ => none
  | _, _ => none

end Progress

def ofTokens? (tokens : List Json.Token) : Option Written :=
  (tokens.foldlM Progress.step ⟨[], .value⟩).bind fun p =>
    match p.expected with
    | .done v => some v
    | _ => none

def parse? (text : String) : Option Written :=
  (Json.tokens? text.toList).bind ofTokens?

/-! ## Reading values -/

abbrev Limit := Option Nat

/-- Text may nest 127 brackets. -/
def Limit.text : Limit := some 127

def Limit.enter? : Limit → Option Limit
  | none => some none
  | some 0 => none
  | some (n + 1) => some (some n)

mutual

/-- The value, with the members of objects in order and the last of equal keys. -/
def value? (limit : Limit) : Written → Option Json
  | null => some .null
  | bool b => some (.bool b)
  | number n => n.map .number
  | string s => s.map .string
  | array items => (Limit.enter? limit).bind fun inner => (values? inner items).map .array
  | object fields => (Limit.enter? limit).bind fun inner => (members? inner fields []).map .object

def values? (limit : Limit) : List Written → Option (List Json)
  | [] => some []
  | v :: rest => (value? limit v).bind fun v => (values? limit rest).map (v :: ·)

def members? (limit : Limit) : List (Option String × Written) → Json.Fields → Option Json.Fields
  | [], read => some read
  | (key, v) :: rest, read =>
    key.bind fun key => (value? limit v).bind fun v => members? limit rest (Assoc.insert key v read)

end

/-! ## Values as they would be written -/

mutual

def ofJson : Json → Written
  | .null => null
  | .bool b => bool b
  | .number n => number (some n)
  | .string s => string (some s)
  | .array items => array (ofItems items)
  | .object fields => object (ofFields fields)

def ofItems : List Json → List Written
  | [] => []
  | v :: rest => ofJson v :: ofItems rest

def ofFields : List (String × Json) → List (Option String × Written)
  | [] => []
  | (key, v) :: rest => (some key, ofJson v) :: ofFields rest

end

end Written

namespace Json

def parse? (text : String) : Option Json :=
  (Written.parse? text).bind (Written.value? .text)

end Json

end MediaCache
