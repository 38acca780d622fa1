import MediaCache.Config.Toml.Scalar

/-!
# TOML tables

A table may be opened by a header once. One that only stands on the way to another, or that a dotted
key makes, is not opened yet, and one in braces is complete; which of these it is decides what may
still be added to it. Keys stand in the order in which they came, because the first of them may say
that the table is a time.
-/

namespace MediaCache.Toml

inductive Origin where
  | header
  /-- It is on the way to a table with a header. -/
  | path
  | dotted
  | braces
deriving DecidableEq

inductive Node where
  | scalar (v : Scalar)
  | list (items : List Node)
  | table (origin : Origin) (entries : List (String × Node))
  /-- A list of tables, each with a header. -/
  | tables (items : List (List (String × Node)))
deriving Inhabited

abbrev Entries := List (String × Node)

/-! ## JSON form -/

/-- The key of a time. A table with this key in front stands for the time that its value spells,
whatever else is in the table. -/
def timeKey : String := "$__toml_private_datetime"

def Node.time? : Node → Option String
  | .scalar (.string s) => (timestamp? s.toList).map String.ofList
  | _ => none

mutual

/-- There is none when a table has the key of a time in front and spells no time. -/
def Node.toJson? : Node → Option Json
  | .scalar v => some v.toJson
  | .list items => do return .array (← itemsToJson? items)
  | .table _ entries => tableToJson? entries
  | .tables items => do return .array (← tablesToJson? items)

def itemsToJson? : List Node → Option (List Json)
  | [] => some []
  | node :: rest => do return (← node.toJson?) :: (← itemsToJson? rest)

def tableToJson? : List (String × Node) → Option Json
  | [] => some (.object [])
  | (key, node) :: rest =>
    if key = timeKey then node.time?.map .string
    else do return .object (Assoc.insert key (← node.toJson?) (← membersToJson? rest))

def membersToJson? : List (String × Node) → Option Json.Fields
  | [] => some []
  | (key, node) :: rest => do return Assoc.insert key (← node.toJson?) (← membersToJson? rest)

def tablesToJson? : List (List (String × Node)) → Option (List Json)
  | [] => some []
  | entries :: rest => do return (← tableToJson? entries) :: (← tablesToJson? rest)

end

/-! ## Filling tables -/

def put (key : String) (node : Node) : Entries → Entries
  | [] => [(key, node)]
  | (k, old) :: rest => if k = key then (k, node) :: rest else (k, old) :: put key node rest

def putLast (key : String) (node : Node) (entries : Entries) : Entries :=
  Assoc.erase key entries ++ [(key, node)]

def replaceLast (items : List Entries) (entries : Entries) : List Entries :=
  items.dropLast ++ [entries]

/-- Gives a dotted key a value. The key must be new. `isOpen` says whether keys may be put right into the
table itself. -/
def assign? (isOpen : Bool) (v : Node) : List String → Entries → Option Entries
  | [], _ => none
  | [key], entries =>
    if isOpen && !Assoc.contains key entries then some (put key v entries) else none
  | key :: rest, entries =>
    match Assoc.get? key entries with
    | none => do
      let inner ← assign? true v rest []
      return put key (.table .dotted inner) entries
    | some (.table origin inner) =>
      -- Dotted keys pass no table with a header or in braces.
      if origin = .path ∨ origin = .dotted then do
        let inner ← assign? (origin = .dotted) v rest inner
        return put key (.table origin inner) entries
      else none
    | some (.tables items) => do
      let inner ← assign? false v rest (← items.getLast?)
      return put key (.tables (replaceLast items inner)) entries
    | some _ => none

abbrev Body := List (List String × Node)

def Body.fill? (body : Body) (entries : Entries) : Option Entries :=
  body.foldlM (fun entries (path, v) => assign? true v path entries) entries

/-! ## Sections -/

structure Section where
  path : List String
  isItem : Bool
  body : Body

namespace Section

/-- What a section makes of what stands at its path. A table that was only on the way is opened with
what it holds. -/
def open? (s : Section) : Option Node → Option Node
  | none => do
    let entries ← s.body.fill? []
    return if s.isItem then .tables [entries] else .table .header entries
  | some (.table .path entries) =>
    if s.isItem then none else return .table .header (← s.body.fill? entries)
  | some (.tables items) =>
    if s.isItem then return .tables (items ++ [← s.body.fill? []]) else none
  | some _ => none

/-- Puts a section at the end of a path. Tables on the way are made when they are missing. -/
def place? (s : Section) : List String → Entries → Option Entries
  | [], _ => none
  | [key], entries => do
    let node ← s.open? (Assoc.get? key entries)
    -- A table that is opened moves behind the other keys, a list stays where it began.
    return if s.isItem then put key node entries else putLast key node entries
  | key :: rest, entries =>
    match Assoc.get? key entries with
    | none => do
      let inner ← s.place? rest []
      return put key (.table .path inner) entries
    | some (.table origin inner) =>
      if origin = .braces then none
      else do
        let inner ← s.place? rest inner
        return put key (.table origin inner) entries
    | some (.tables items) => do
      -- The way goes through the last table of the list.
      let inner ← s.place? rest (← items.getLast?)
      return put key (.tables (replaceLast items inner)) entries
    | some _ => none

end Section

def build? (body : Body) (sections : List Section) : Option Json := do
  let root ← body.fill? []
  let root ← sections.foldlM (fun root s => s.place? s.path root) root
  tableToJson? root

end MediaCache.Toml
