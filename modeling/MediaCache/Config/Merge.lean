import MediaCache.Json.Basic

/-!
# Merging layers

Objects merge member by member. Anything else that a later layer says replaces what the earlier ones
said, lists and `null` included.
-/

namespace MediaCache.Config

mutual

def merge (base : Json) : Json → Json
  | .object overlay =>
    match base with
    | .object fields => .object (mergeFields fields overlay)
    | _ => .object overlay
  | v => v

def mergeFields (base : Json.Fields) : List (String × Json) → Json.Fields
  | [] => base
  | (key, v) :: rest =>
    let merged :=
      match Assoc.get? key base with
      | some existing => merge existing v
      | none => v
    mergeFields (Assoc.insert key merged base) rest

end

def mergeLayers (layers : List Json) : Json := layers.foldl merge .null

end MediaCache.Config
