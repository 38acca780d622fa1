import MediaCache.Config.Settings
import MediaCache.Json.Token

/-!
# Endpoints

Where the server answers queries and where it sends events, both from the base URL. The port and the
scheme of the base URL give way to the settings.
-/

namespace MediaCache.Config

structure Endpoint where
  isSecure : Bool
  host : String
  port : Option UInt16
  path : String
deriving DecidableEq, Repr

namespace Endpoint

/-! ## Reading -/

def splitScheme? : List Char → Option (List Char × List Char)
  | [] => none
  | ':' :: '/' :: '/' :: rest => some ([], rest)
  | c :: rest => (splitScheme? rest).map fun (scheme, rest) => (c :: scheme, rest)

def splitLastColon? : List Char → Option (List Char × List Char)
  | [] => none
  | c :: rest =>
    match splitLastColon? rest with
    | some (host, port) => some (c :: host, port)
    | none => if c = ':' then some ([], rest) else none

/-- A number below 65536, perhaps with a plus sign and with zeros in front. -/
def port? (cs : List Char) : Option UInt16 :=
  let digits :=
    match cs with
    | '+' :: digits => digits
    | digits => digits
  if digits.isEmpty ∨ !digits.all Char.isDigit then none
  else
    let n := Json.NumberLiteral.readDigits digits
    if n < 65536 then some (UInt16.ofNat n) else none

/-- Host and port of an authority. What stands behind its last colon must be a port. -/
def authority? (cs : List Char) : Option (List Char × Option UInt16) :=
  match splitLastColon? cs with
  | none => some (cs, none)
  | some (host, port) => (port? port).map fun port => (host, some port)

def isSecureScheme? (https : Bool) (scheme : List Char) : Option Bool :=
  if scheme = "http".toList then some https
  else if scheme = "https".toList then some true
  else none

def closed (path : List Char) : List Char := if path.getLast? = some '/' then path else path ++ ['/']

def ofSettings? (settings : Settings) : Option Endpoint := do
  let (scheme, rest) ← splitScheme? settings.baseUrl.toList
  let isSecure ← isSecureScheme? settings.https scheme
  let (host, port) ← authority? (rest.takeWhile (· != '/'))
  if host.isEmpty then none
  else
    return { isSecure
             host := String.ofList host
             port := settings.devPort.or port
             path := String.ofList (closed (rest.dropWhile (· != '/'))) }

def ofSettings (settings : Settings) : Except SettingsError Endpoint :=
  match ofSettings? settings with
  | some endpoint => .ok endpoint
  | none => .error (.invalidBaseUrl settings.baseUrl)

/-! ## Writing -/

def portText : Option UInt16 → String
  | some port => ":" ++ String.ofList (Nat.toDigits 10 port.toNat)
  | none => ""

def url (e : Endpoint) (scheme : String) : String :=
  scheme ++ "://" ++ e.host ++ portText e.port ++ e.path ++ "graphql"

def http (e : Endpoint) : String := e.url (if e.isSecure then "https" else "http")

def ws (e : Endpoint) : String := e.url (if e.isSecure then "wss" else "ws")

def toJson (e : Endpoint) : Json :=
  .object [("http", .string e.http), ("ws", .string e.ws)]

end Endpoint

end MediaCache.Config
