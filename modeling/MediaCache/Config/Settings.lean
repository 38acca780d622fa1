import MediaCache.Config.Merge
import MediaCache.Text.Blank

/-!
# Settings

The keys of a configuration that the client reads. A wrong value is an error even where a missing one
is not.
-/

namespace MediaCache.Config

inductive SettingsError where
  | baseUrlType
  | baseUrlScheme
  | baseUrlEnd
  | httpsType
  | devPortRange
  | apiKeyEmpty
  | gcAfterEvictType
  | logFilterBlank
  | invalidBaseUrl (url : String)
deriving DecidableEq, Repr

def SettingsError.message : SettingsError → String
  | .baseUrlType => "server.base_url must be a string"
  | .baseUrlScheme => "server.base_url must start with http:// or https://"
  | .baseUrlEnd => "server.base_url must end with '/'"
  | .httpsType => "server.https must be a boolean"
  | .devPortRange => "server.dev_port must be in (0, 65535]"
  | .apiKeyEmpty => "server.api_key must be a non-empty string"
  | .gcAfterEvictType => "cache.gc_after_evict must be a boolean"
  | .logFilterBlank => "log.filter must be a non-empty string"
  | .invalidBaseUrl url => "invalid base url: " ++ url

structure Settings where
  baseUrl : String := "http://localhost:9999/"
  https : Bool := false
  devPort : Option UInt16 := none
  apiKey : Option String := none
  gcAfterEvict : Bool := true
  logFilter : String := "info"
deriving DecidableEq, Repr

def defaults : Json :=
  let settings : Settings := {}
  .object [("cache", .object [("gc_after_evict", .bool settings.gcAfterEvict)]),
    ("log", .object [("filter", .string settings.logFilter)]),
    ("server", .object [("base_url", .string settings.baseUrl), ("https", .bool settings.https)])]

/-! ## Reading -/

def at? (config : Json) (path : List String) : Option Json := path.foldlM Json.field? config

/-- The value at a path, where `null` counts as missing. -/
def given? (config : Json) (path : List String) : Option Json :=
  (at? config path).filter fun v => !v.isNull

def readBaseUrl (config : Json) : Except SettingsError String :=
  match at? config ["server", "base_url"] with
  | some (.string url) =>
    if !(url.startsWith "http://" || url.startsWith "https://") then .error .baseUrlScheme
    else if !url.endsWith "/" then .error .baseUrlEnd
    else .ok url
  | _ => .error .baseUrlType

def readHttps (config : Json) : Except SettingsError Bool :=
  match given? config ["server", "https"] with
  | none => .ok false
  | some (.bool b) => .ok b
  | some _ => .error .httpsType

def readDevPort (config : Json) : Except SettingsError (Option UInt16) :=
  match given? config ["server", "dev_port"] with
  | none => .ok none
  | some v =>
    match v.asInt64? with
    | some port =>
      if 0 < port ∧ port ≤ 65535 then .ok (some (UInt16.ofNat port.toNat)) else .error .devPortRange
    | none => .error .devPortRange

def readApiKey (config : Json) : Except SettingsError (Option String) :=
  match given? config ["server", "api_key"] with
  | none => .ok none
  | some (.string key) => if key.isEmpty then .error .apiKeyEmpty else .ok (some key)
  | some _ => .error .apiKeyEmpty

/-- Unlike the other switches this one may not be `null`. -/
def readGcAfterEvict (config : Json) : Except SettingsError Bool :=
  match at? config ["cache", "gc_after_evict"] with
  | none => .ok true
  | some (.bool b) => .ok b
  | some _ => .error .gcAfterEvictType

def readLogFilter (config : Json) : Except SettingsError String :=
  match at? config ["log", "filter"] with
  | some (.string text) => if isBlankText text then .error .logFilterBlank else .ok text
  | _ => .error .logFilterBlank

def Settings.read (config : Json) : Except SettingsError Settings := do
  return {
    baseUrl := ← readBaseUrl config
    https := ← readHttps config
    devPort := ← readDevPort config
    apiKey := ← readApiKey config
    gcAfterEvict := ← readGcAfterEvict config
    logFilter := ← readLogFilter config }

end MediaCache.Config
