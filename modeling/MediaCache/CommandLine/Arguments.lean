import MediaCache.Schema.Family

/-!
# Arguments

Arguments are sorted into options, words and requests for help first, because every option takes one
value wherever it stands. The words and options are then read from left to right; the first that fits
nowhere refuses them all, unless help was asked for before it. A value in an argument of its own is
looked at only when the next option is reached, or behind everything else.
-/

namespace MediaCache.CommandLine

inductive CommandName where
  | check
  | impact
  | replay
  | config
deriving DecidableEq, Repr

namespace CommandName

def all : List CommandName := [check, impact, replay, config]

def text : CommandName → String
  | check => "check"
  | impact => "impact"
  | replay => "replay"
  | config => "config"

def ofText? (s : String) : Option CommandName := all.find? (·.text == s)

def options : CommandName → List String
  | replay => ["config", "snapshot", "log", "out"]
  | _ => ["config"]

end CommandName

inductive Topic where
  | program
  | command (name : CommandName)
  | help
deriving DecidableEq, Repr

inductive Command where
  | check
  | impact (family : Family)
  | replay (snapshot log : String) (out : Option String)
  | config
deriving DecidableEq, Repr

inductive Request where
  | command (configPath : Option String) (command : Command)
  | help (topic : Topic)
  | version
deriving DecidableEq, Repr

/-! ## Sorting -/

inductive Item where
  | option (name value : String) (isAttached : Bool)
  /-- Behind `--` a word is never the name of a command. -/
  | word (text : String) (isEscaped : Bool)
  | escape
  | help
  | version
  | malformed
deriving DecidableEq, Repr

inductive Form where
  | option (name : String) (value : Option String)
  | word
  | escape
  | help
  | version
  | malformed
deriving DecidableEq, Repr

def longForm (cs : List Char) : Form :=
  let name := String.ofList (cs.takeWhile (· != '='))
  let value :=
    match cs.dropWhile (· != '=') with
    | [] => none
    | _ :: value => some (String.ofList value)
  if name = "help" ∨ name = "version" then
    if value.isSome then .malformed else if name = "help" then .help else .version
  else .option name value

def attachedValue : List Char → Option String
  | [] => none
  | '=' :: value => some (String.ofList value)
  | value => some (String.ofList value)

def form (arg : String) : Form :=
  match arg.toList with
  | ['-', '-'] => .escape
  | '-' :: '-' :: cs => longForm cs
  | '-' :: 'c' :: value => .option "config" (attachedValue value)
  | '-' :: 'h' :: _ => .help
  | '-' :: 'V' :: _ => .version
  | '-' :: _ :: _ => .malformed
  | _ => .word

/-- Sorts arguments. `pending` is an option that still needs its value; only a word can be it. -/
def items (pending : Option String) : List String → List Item
  | [] => if pending.isSome then [.malformed] else []
  | arg :: rest =>
    match pending, form arg with
    | some name, .word => .option name arg false :: items none rest
    | some _, _ => [.malformed]
    | none, .option name (some value) => .option name value true :: items none rest
    | none, .option name none => items (some name) rest
    | none, .word => .word arg false :: items none rest
    | none, .escape => .escape :: rest.map (.word · true)
    | none, .help => .help :: items none rest
    | none, .version => .version :: items none rest
    | none, .malformed => [.malformed]

/-! ## Reading -/

structure Given where
  options : List (String × String) := []
  family : Option Family := none

namespace Given

def option? (g : Given) (name : String) : Option String := g.options.lookup name

/-- An option may be given once, and its value may not be empty. -/
def addOption? (g : Given) (command : CommandName) (name value : String) : Option Given :=
  if command.options.contains name && (g.option? name).isNone && !value.isEmpty then
    some { g with options := (name, value) :: g.options }
  else none

def addWord? (g : Given) (command : CommandName) (word : String) : Option Given :=
  match command, g.family with
  | .impact, none => (Family.ofName? word).map fun family => { g with family := some family }
  | _, _ => none

def command? (g : Given) : CommandName → Option Command
  | .check => some .check
  | .impact => g.family.map .impact
  | .replay => do return .replay (← g.option? "snapshot") (← g.option? "log") (g.option? "out")
  | .config => some .config

end Given

/-- Reads what stands behind the name of a command. Values are looked at as they come: a request comes
from an option or from the end, and all values before it have been looked at by then. -/
def readCommand (name : CommandName) (g : Given) : List Item → Option Request
  | [] => (g.command? name).map (.command (g.option? "config"))
  | .option option value _ :: rest =>
    (g.addOption? name option value).bind fun g => readCommand name g rest
  | .word word _ :: rest => (g.addWord? name word).bind fun g => readCommand name g rest
  | .escape :: rest => readCommand name g rest
  | .help :: _ => some (.help (.command name))
  | .version :: _ => none
  | .malformed :: _ => none

def readHelp : List Item → Option Request
  | [] => some (.help .program)
  | [.word name false] =>
    if name = "help" then some (.help .help)
    else (CommandName.ofText? name).map fun name => .help (.command name)
  | _ => none

structure Leading where
  path : Option String := none
  unchecked : Option String := none

namespace Leading

def check? (l : Leading) : Option Leading :=
  match l.unchecked, l.path with
  | none, _ => some l
  | some value, none => if value.isEmpty then none else some { path := value }
  | some _, some _ => none

def add? (l : Leading) (value : String) (isAttached : Bool) : Option Leading := do
  let l ← l.check?
  let l := { l with unchecked := some value }
  if isAttached then l.check? else return l

/-- A path behind the name of a command counts more than one before it. -/
def complete? (l : Leading) : Request → Option Request
  | .command path command => l.check?.map fun l => .command (path.or l.path) command
  | request => some request

end Leading

/-- A value that is unchecked when the name of a command is reached is looked at behind all that stands
after the name. Help that is asked for there comes first. -/
def readItems (l : Leading) : List Item → Option Request
  | .help :: _ => l.check?.map fun _ => .help .program
  | .version :: _ => l.check?.map fun _ => .version
  | .option name value isAttached :: rest =>
    if name = "config" then (l.add? value isAttached).bind fun l => readItems l rest else none
  | .word name false :: rest =>
    if name = "help" then readHelp rest
    else do l.complete? (← readCommand (← CommandName.ofText? name) {} rest)
  | _ => none

def read? (args : List String) : Option Request := readItems {} (items none args)

end MediaCache.CommandLine
