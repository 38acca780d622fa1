import MediaCache.Store.Reference
import MediaCache.Json.Canonical

/-!
# Names of root entries

A root entry is named by its field and the canonical text of its arguments, so two argument objects
that differ in the order of their members only share one entry.
-/

namespace MediaCache

/-- `null` and an empty object are no arguments. -/
def storeFieldName (field : String) (args : Option Json) : String :=
  match args with
  | none => field
  | some .null => field
  | some (.object []) => field
  | some args => field ++ "(" ++ String.ofList args.canonical ++ ")"

def isNameStart (c : Char) : Bool := c.isAlpha || c == '_'

def isNameChar (c : Char) : Bool := c.isAlphanum || c == '_'

def isArguments : List Char → Bool
  | [] => true
  | '(' :: rest => rest.getLast? == some ')' && !rest.contains '\n'
  | _ => false

/-- The field of a root entry. A text of any other form is its own field. -/
def baseFieldName (name : String) : String :=
  let chars := name.toList
  let base := chars.takeWhile isNameChar
  if base.head?.any isNameStart && isArguments (chars.dropWhile isNameChar) then String.ofList base
  else name

end MediaCache
