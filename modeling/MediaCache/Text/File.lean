/-!
# Files

What can be found at a path, and the causes why it cannot be read or written.
-/

namespace MediaCache

inductive FileError where
  | notFound
  | notDirectory
  | isDirectory
  | permissionDenied
  | nameTooLong
  | other (code : Nat) (reason : String)
deriving DecidableEq, Repr

def FileError.message : FileError → String
  | .notFound => "No such file or directory (os error 2)"
  | .notDirectory => "Not a directory (os error 20)"
  | .isDirectory => "Is a directory (os error 21)"
  | .permissionDenied => "Permission denied (os error 13)"
  | .nameTooLong => "File name too long (os error 36)"
  | .other code reason => reason ++ " (os error " ++ String.ofList (Nat.toDigits 10 code) ++ ")"

abbrev FileContent := Except FileError ByteArray

inductive TextError where
  | file (e : FileError)
  | notUtf8
deriving DecidableEq, Repr

def TextError.message : TextError → String
  | .file e => e.message
  | .notUtf8 => "stream did not contain valid UTF-8"

namespace FileContent

def isMissing : FileContent → Bool
  | .error .notFound => true
  | .error .notDirectory => true
  | .error .nameTooLong => true
  | _ => false

def text : FileContent → Except TextError String
  | .error e => .error (.file e)
  | .ok bytes =>
    match String.fromUTF8? bytes with
    | some text => .ok text
    | none => .error .notUtf8

end FileContent

end MediaCache
