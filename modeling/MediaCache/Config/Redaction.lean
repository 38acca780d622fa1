import MediaCache.Json.Basic

/-!
# Redaction

Values at keys that tell of a secret are replaced before a configuration is shown. Tables are searched
through and lists are not.
-/

namespace MediaCache.Config

def secretWords : List String := ["api_key", "password", "token", "secret"]

/-- The small letter, for the characters whose small letter is one of the 26. The other is the sign
of the kelvin. -/
def smallLetter (c : Char) : Char := if c = '\u212a' then 'k' else c.toLower

def isInfix (word : List Char) : List Char → Bool
  | [] => word.isEmpty
  | c :: rest => word.isPrefixOf (c :: rest) || isInfix word rest

def isSecretKey (key : String) : Bool :=
  secretWords.any fun word => isInfix word.toList (key.toList.map smallLetter)

/-- A secret is replaced unless it is a table, which is searched, or `null`. -/
def isHidden (key : String) (v : Json) : Bool := isSecretKey key && !v.isObject && !v.isNull

def hiddenText : String := "[REDACTED]"

mutual

def redact : Json → Json
  | .object fields => .object (redactFields fields)
  | v => v

def redactFields : List (String × Json) → Json.Fields
  | [] => []
  | (key, v) :: rest =>
    (key, if isHidden key v then .string hiddenText else redact v) :: redactFields rest

end

def joinPath (path key : String) : String := if path.isEmpty then key else path ++ "." ++ key

mutual

def redactedPaths (path : String) : Json → List String
  | .object fields => redactedFieldPaths path fields
  | _ => []

def redactedFieldPaths (path : String) : List (String × Json) → List String
  | [] => []
  | (key, v) :: rest =>
    (if isHidden key v then [joinPath path key] else redactedPaths (joinPath path key) v) ++
      redactedFieldPaths path rest

end

end MediaCache.Config
