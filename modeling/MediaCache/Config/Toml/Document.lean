import MediaCache.Config.Toml.Quoted
import MediaCache.Config.Toml.Table

/-!
# TOML text

A text is read into keys with values, in sections that start with a header. Every reader gives the
text behind what it has read. Keys with 80 parts and values with 80 open brackets are refused.
-/

namespace MediaCache.Toml

/-! ## White space, comments and line ends -/

def isBlank (c : Char) : Bool := c == ' ' || c == '\t'

def skipBlanks (cs : List Char) : List Char := cs.dropWhile isBlank

/-- Skips blanks, line ends and comments. A comment stops at a character that may not be in it, which
nothing can read then. -/
def skipLines (inComment : Bool) : List Char → List Char
  | [] => []
  | '\n' :: rest => skipLines false rest
  | '\r' :: '\n' :: rest => skipLines false rest
  | c :: rest =>
    if inComment then
      if isText c then skipLines true rest else c :: rest
    else if isBlank c then skipLines false rest
    else if c = '#' then skipLines true rest
    else c :: rest

def nextLine? (cs : List Char) : Option (List Char) :=
  let rest :=
    match skipBlanks cs with
    | '#' :: rest => rest.dropWhile isText
    | rest => rest
  match rest with
  | [] => some []
  | '\n' :: rest => some rest
  | '\r' :: '\n' :: rest => some rest
  | _ => none

/-! ## Keys -/

def isBareKeyChar (c : Char) : Bool := c.isAlphanum || c == '_' || c == '-'

def keyPart? : List Char → Option (List Char × List Char)
  | '"' :: rest => basic? rest
  | '\'' :: rest => literal? rest
  | cs =>
    let part := cs.takeWhile isBareKeyChar
    if part.isEmpty then none else some (part, cs.dropWhile isBareKeyChar)

def key? : Nat → List Char → Option (List String × List Char)
  | 0, _ => none
  | limit + 1, cs => do
    let (part, rest) ← keyPart? (skipBlanks cs)
    match skipBlanks rest with
    | '.' :: rest =>
      let (parts, rest) ← key? limit rest
      return (String.ofList part :: parts, rest)
    | rest => return ([String.ofList part], rest)

def keyLimit : Nat := 79

/-! ## Values -/

def isScalarChar (c : Char) : Bool :=
  c.isAlphanum || c == '+' || c == '-' || c == '_' || c == '.' || c == ':'

/-- The characters of a value without quotes. A blank belongs to it only between a date and a time. -/
def scalarRun (cs : List Char) : List Char × List Char :=
  let run := cs.takeWhile isScalarChar
  match date? run, cs.dropWhile isScalarChar with
  | some (_, []), ' ' :: rest =>
    if (rest.head?.map Char.isDigit).getD false then
      (run ++ ' ' :: rest.takeWhile isScalarChar, rest.dropWhile isScalarChar)
    else (run, ' ' :: rest)
  | _, rest => (run, rest)

mutual

/-- A value. `room` is how many more brackets may be opened inside it. -/
def readValue : Nat → Nat → List Char → Option (Node × List Char)
  | 0, _, _ => none
  | fuel + 1, room, cs =>
    match cs with
    | '[' :: rest =>
      match room with
      | 0 => none
      | room + 1 => do
        let (items, rest) ← readItems fuel room (skipLines false rest)
        return (.list items, rest)
    | '\x7b' :: rest =>
      match room with
      | 0 => none
      | room + 1 =>
        match skipBlanks rest with
        | '\x7d' :: rest => some (.table .braces [], rest)
        | rest => do
          let (body, rest) ← readMembers fuel room rest
          return (.table .braces (← Body.fill? body []), rest)
    | '"' :: _ | '\'' :: _ => do
      let (body, rest) ← quoted? cs
      return (.scalar (.string (String.ofList body)), rest)
    | cs => do
      let (run, rest) := scalarRun cs
      return (.scalar (← scalar? run), rest)

def readItems : Nat → Nat → List Char → Option (List Node × List Char)
  | 0, _, _ => none
  | fuel + 1, room, cs =>
    match cs with
    | ']' :: rest => some ([], rest)
    | cs => do
      let (v, rest) ← readValue fuel room cs
      match skipLines false rest with
      | ',' :: rest =>
        let (items, rest) ← readItems fuel room (skipLines false rest)
        return (v :: items, rest)
      | ']' :: rest => return ([v], rest)
      | _ => none

def readMembers : Nat → Nat → List Char → Option (Body × List Char)
  | 0, _, _ => none
  | fuel + 1, room, cs => do
    let (path, rest) ← key? keyLimit cs
    match rest with
    | '=' :: rest =>
      let (v, rest) ← readValue fuel room (skipBlanks rest)
      match skipBlanks rest with
      | ',' :: rest =>
        let (body, rest) ← readMembers fuel room rest
        return ((path, v) :: body, rest)
      | '\x7d' :: rest => return ([(path, v)], rest)
      | _ => none
    | _ => none

end

/-- Every reader of a value takes two steps at most for each character. -/
def value? (cs : List Char) : Option (Node × List Char) := readValue (2 * cs.length + 2) 79 cs

/-! ## Lines -/

inductive Line where
  | blank
  | header (path : List String) (isItem : Bool)
  | assignment (path : List String) (v : Node)

def header? (isItem : Bool) (cs : List Char) : Option (Line × List Char) := do
  let (path, rest) ← key? keyLimit cs
  match isItem, rest with
  | false, ']' :: rest => return (.header path false, rest)
  | true, ']' :: ']' :: rest => return (.header path true, rest)
  | _, _ => none

def line? (cs : List Char) : Option (Line × List Char) :=
  match skipBlanks cs with
  | [] => some (.blank, [])
  | '#' :: rest => some (.blank, '#' :: rest)
  | '\n' :: rest => some (.blank, '\n' :: rest)
  | '\r' :: rest => some (.blank, '\r' :: rest)
  | '[' :: '[' :: rest => header? true rest
  | '[' :: rest => header? false rest
  | rest => do
    let (path, rest) ← key? keyLimit rest
    match rest with
    | '=' :: rest =>
      let (v, rest) ← value? (skipBlanks rest)
      return (.assignment path v, rest)
    | _ => none

def readLines : Nat → List Char → Option (List Line)
  | 0, _ => none
  | _, [] => some []
  | fuel + 1, cs => do
    let (line, rest) ← line? cs
    let lines ← readLines fuel (← nextLine? rest)
    return line :: lines

def sections : List Line → Body × List Section
  | [] => ([], [])
  | line :: rest =>
    let (body, later) := sections rest
    match line with
    | .blank => (body, later)
    | .assignment path v => ((path, v) :: body, later)
    | .header path isItem => ([], ⟨path, isItem, body⟩ :: later)

/-- The value that a text describes. A byte order mark in front is no part of it. -/
def parse? (text : String) : Option Json := do
  let cs :=
    match text.toList with
    | '\ufeff' :: rest => rest
    | cs => cs
  let (body, later) := sections (← readLines (cs.length + 1) cs)
  build? body later

end MediaCache.Toml
