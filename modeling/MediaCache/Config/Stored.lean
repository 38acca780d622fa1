import MediaCache.Config.Layers
import MediaCache.Json.Decode
import MediaCache.Time.Instant

/-!
# Stored configurations

The JSON form of a configuration. Settings are no part of it: a configuration that is read back has
the default settings.
-/

namespace MediaCache.Config

open Json (Fields)

def Source.toJson (s : Source) : Json :=
  .object <|
    (s.digest.map fun digest => ("digest", Json.string digest)).toList ++
      [("origin", .string s.origin.name)] ++
      (s.path.map fun path => ("path", Json.string path)).toList

def toJson (c : Config) : Json :=
  .object [("config", c.values), ("created_at", .string c.createdAt),
    ("redactions", .strings c.redactions), ("schema_id", .string c.schemaId),
    ("schema_version", .int c.schemaVersion.toNat), ("sources", .array (c.sources.map Source.toJson))]

/-! ## Reading -/

def Origin.ofJson? (v : Json) : Option Origin := (Json.unitName? v).bind Origin.ofName?

def optionalText? : Json → Option (Option String)
  | .null => some none
  | .string s => some (some s)
  | _ => none

/-- Reads an object, or a list of all three members. -/
def Source.ofJson? : Json → Option Source
  | .object fields => do
    return { origin := ← Fields.required? fields "origin" Origin.ofJson?
             path := ← Fields.optional? fields "path" Json.asString?
             digest := ← Fields.optional? fields "digest" Json.asString? }
  | .array [origin, path, digest] => do
    return { origin := ← Origin.ofJson? origin
             path := ← optionalText? path
             digest := ← optionalText? digest }
  | _ => none

def version? (v : Json) : Option UInt32 := do
  let n ← v.asInt64?
  if 0 ≤ n ∧ n < 0x100000000 then some (UInt32.ofNat n.toNat) else none

def instant? (v : Json) : Option String := do return (← Instant.parse? (← v.asString?)).text

def sources? (v : Json) : Option (List Source) := v.asItems?.bind fun items => items.mapM Source.ofJson?

/-- Reads an object, or a list of all six members. -/
def ofJson? : Json → Option Config
  | .object fields => do
    return { schemaVersion := ← Fields.required? fields "schema_version" version?
             schemaId := ← Fields.required? fields "schema_id" Json.asString?
             createdAt := ← Fields.required? fields "created_at" instant?
             values := ← Fields.required? fields "config" some
             sources := ← Fields.required? fields "sources" sources?
             redactions := ← Fields.required? fields "redactions" Json.strings?
             settings := {} }
  | .array [version, id, createdAt, values, sources, redactions] => do
    return { schemaVersion := ← version? version
             schemaId := ← id.asString?
             createdAt := ← instant? createdAt
             values
             sources := ← sources? sources
             redactions := ← Json.strings? redactions
             settings := {} }
  | _ => none

end MediaCache.Config
