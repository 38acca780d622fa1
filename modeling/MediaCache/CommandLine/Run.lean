import MediaCache.Client.Replay
import MediaCache.CommandLine.Help
import MediaCache.Config.Stored
import MediaCache.Update.Impact

/-!
# Running a command

A run is a function of the arguments, the files and the clock. What it prints and the file that it
writes are its result.
-/

namespace MediaCache.CommandLine

structure Surroundings where
  calledName : String
  files : String → FileContent
  home : Option String
  now : String
  nowInMilliseconds : String

structure Exit where
  code : Nat := 0
  stdout : String := ""
  stderr : String := ""
  output : Option (String × String) := none
deriving DecidableEq, Repr

def Exit.failure (message : String) : Exit := { code := 1, stderr := message ++ "\n" }

def Exit.success (line : String) : Exit := { stdout := line ++ "\n" }

def Exit.unwritten (path : String) (e : FileError) : Exit :=
  .failure ("Error writing " ++ path ++ ": " ++ e.message)

/-! ## Configuration -/

def hostPath (home : String) : String :=
  let name := ".config/stash/cache.toml"
  if home.isEmpty then name else if home.endsWith "/" then home ++ name else home ++ "/" ++ name

def projectPath : String := ".stash/cache.toml"

def loadConfig (s : Surroundings) (configPath : Option String) : Except ConfigError Config :=
  let withContent (path : String) : String × FileContent := (path, s.files path)
  Config.build s.now ((s.home.map hostPath).map withContent)
    (some (withContent (configPath.getD projectPath))) none

/-! ## Commands -/

def checkTables (registry : List DerivedField) : Exit :=
  match DerivedField.uncovered registry with
  | [] =>
    .success ("OK: " ++ toString registry.length ++ " derived fields covered, " ++
      toString MutationKind.all.length ++ " mutation kinds routed")
  | gaps =>
    let gapLine (d : DerivedField) : String :=
      "missing: " ++ d.gapText ++ " (source family " ++ d.source.name ++ ")\n"
    .failure (String.join (gaps.map gapLine) ++ toString gaps.length ++ " derived field(s) not covered")

def showConfig (c : Config) : Exit :=
  match Config.Endpoint.ofSettings c.settings with
  | .error e => .failure ("Configuration error: " ++ (ConfigError.invalid e).message)
  | .ok endpoint =>
    .success (Json.object [("effective", c.toJson), ("endpoints", endpoint.toJson)]).pretty

/-- An overflow has a code of its own: nothing is wrong with the files. -/
def replayCode : ReplayError → Nat
  | .overflow _ => 101
  | _ => 1

def replayLog (s : Surroundings) (options : Options) (snapshot log : String) (out : Option String) :
    Exit :=
  match replayFiles options s.nowInMilliseconds (s.files snapshot) (s.files log), out with
  | .error e, _ => { Exit.failure (e.message snapshot log) with code := replayCode e }
  | .ok result, some path => { output := some (path, result.render) }
  | .ok result, none => .success result.render

def Command.run (s : Surroundings) (c : Config) : Command → Exit
  | check => checkTables DerivedField.registry
  | impact family => .success (Impact.tableJson family).pretty
  | replay snapshot log out =>
    replayLog s { collectAfterEvict := c.settings.gcAfterEvict } snapshot log out
  | config => showConfig c

/-! ## Everything -/

def versionText : String := "stash-cache 0.1.0"

def refused (s : Surroundings) : Exit :=
  { code := 2, stderr := Topic.program.text s.calledName ++ "\n" }

def Request.run (s : Surroundings) : Request → Exit
  | .help topic => .success (topic.text s.calledName)
  | .version => .success versionText
  | .command configPath toRun =>
    match loadConfig s configPath with
    | .error e => .failure ("Error loading config: " ++ e.message)
    | .ok c => toRun.run s c

def run (s : Surroundings) (args : List String) : Exit :=
  match read? args with
  | none => refused s
  | some request => request.run s

/-! ## Files that a run may read -/

def Command.paths : Command → List String
  | replay snapshot log _ => [snapshot, log]
  | _ => []

def paths (home : Option String) (args : List String) : List String :=
  match read? args with
  | some (.command configPath command) =>
    (home.map hostPath).toList ++ [configPath.getD projectPath] ++ command.paths
  | _ => []

end MediaCache.CommandLine
