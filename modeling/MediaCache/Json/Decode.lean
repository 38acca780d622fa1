import MediaCache.Json.Written

/-!
# Members of known names

Reading the members that a record knows by name. Members with other names are left out.
-/

namespace MediaCache.Json

def strings? (v : Json) : Option (List String) := v.asItems?.bind fun items => items.mapM asString?

namespace Fields

def required? (fields : Fields) (key : String) (read : Json → Option α) : Option α :=
  (Assoc.get? key fields).bind read

def orDefault? (fields : Fields) (key : String) (default : α) (read : Json → Option α) : Option α :=
  match Assoc.get? key fields with
  | none => some default
  | some v => read v

def optional? (fields : Fields) (key : String) (read : Json → Option α) : Option (Option α) :=
  match Assoc.get? key fields with
  | none => some none
  | some null => some none
  | some v => (read v).map some

end Fields

/-- A name given as a string, or as an object with the name as its only key and `null` in it. -/
def unitName? : Json → Option String
  | string s => some s
  | object [(key, null)] => some key
  | _ => none

end MediaCache.Json

namespace MediaCache.Written

/-- The only value written under a key: nothing when the key is missing, and failure when it
repeats. -/
def single? (fields : List (Option String × Written)) (key : String) : Option (Option Written) :=
  match fields.filter fun e => e.1 == some key with
  | [] => some none
  | [e] => some (some e.2)
  | _ => none

/-- Keys must be strings even where their values are skipped. -/
def keysReadable (fields : List (Option String × Written)) : Bool := fields.all (·.1.isSome)

end MediaCache.Written
