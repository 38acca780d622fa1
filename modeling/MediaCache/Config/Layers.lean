import MediaCache.Config.Endpoint
import MediaCache.Config.Redaction
import MediaCache.Config.Sha256
import MediaCache.Config.Toml.Document
import MediaCache.Text.File

/-!
# Layers

A configuration is the defaults with up to three layers over them: the file of the user, the file of
the project and the values of the command line. It keeps where each layer came from. Settings are read
before secrets are hidden.
-/

namespace MediaCache

namespace Config

inductive Origin where
  | builtin
  | host
  | project
  | cli
deriving DecidableEq, Repr

def Origin.all : List Origin := [.builtin, .host, .project, .cli]

def Origin.name : Origin → String
  | builtin => "builtin"
  | host => "host"
  | project => "project"
  | cli => "cli"

def Origin.ofName? (name : String) : Option Origin := all.find? (·.name == name)

structure Source where
  origin : Origin
  path : Option String := none
  digest : Option String := none
deriving DecidableEq, Repr

end Config

structure Config where
  schemaVersion : UInt32
  schemaId : String
  createdAt : String
  values : Json
  sources : List Config.Source
  redactions : List String
  settings : Config.Settings
deriving DecidableEq

inductive ConfigError where
  | file (e : FileError)
  | notUtf8
  | notToml
  | invalid (e : Config.SettingsError)
deriving DecidableEq, Repr

def ConfigError.message : ConfigError → String
  | .file e => "IO error: " ++ e.message
  | .notUtf8 => "Parse error: Invalid UTF-8"
  | .notToml => "Parse error: TOML parse error"
  | .invalid e => "Validation error: " ++ e.message

namespace Config

abbrev Layer := Source × Json

def fileLayer (origin : Origin) (path : String) (bytes : ByteArray) : Except ConfigError Layer :=
  match String.fromUTF8? bytes with
  | none => .error .notUtf8
  | some text =>
    match Toml.parse? text with
    | none => .error .notToml
    | some v => .ok ({ origin, path := some path, digest := some (Sha256.digest bytes) }, v)

def fileLayers (origin : Origin) : Option (String × FileContent) → Except ConfigError (List Layer)
  | none => .ok []
  | some (path, content) =>
    if content.isMissing then .ok []
    else
      match content with
      | .error e => .error (.file e)
      | .ok bytes => do return [← fileLayer origin path bytes]

def cliLayers : Option Json → List Layer
  | none => []
  | some v => [({ origin := .cli }, v)]

def builtinLayer : Layer := ({ origin := .builtin }, defaults)

def ofLayers (now : String) (layers : List Layer) : Except ConfigError Config :=
  let merged := mergeLayers (layers.map (·.2))
  match Settings.read merged with
  | .error e => .error (.invalid e)
  | .ok settings =>
    .ok { schemaVersion := 1
          schemaId := "stash-cache/effective_config@1"
          createdAt := now
          values := redact merged
          sources := layers.map (·.1)
          redactions := redactedPaths "" merged
          settings }

/-- The configuration of all layers. The first file that cannot be read is the error. -/
def build (now : String) (host project : Option (String × FileContent)) (cli : Option Json) :
    Except ConfigError Config := do
  let host ← fileLayers .host host
  let project ← fileLayers .project project
  ofLayers now (builtinLayer :: host ++ project ++ cliLayers cli)

/-! ## Look-up -/

def splitPath (name : String) : List String :=
  name.toList.splitOn '.' |>.map String.ofList

def get? (c : Config) (name : String) : Option Json := at? c.values (splitPath name)

end Config

end MediaCache
