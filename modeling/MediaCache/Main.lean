import MediaCache.CommandLine.Run
import Std.Time.DateTime.Timestamp

/-!
# The program

Reads the files that a run may look at, carries it out, and prints and writes what it returns.
-/

namespace MediaCache.Main

open CommandLine

/-- The number of an error. Some calls report it with its sign turned, in 32 bits. -/
def errorNumber (code : UInt32) : Nat := if code < 0x80000000 then code.toNat else (0 - code).toNat

def fileError : IO.Error → FileError
  | .noFileOrDirectory _ _ _ => .notFound
  | .permissionDenied _ _ _ => .permissionDenied
  | .inappropriateType _ code reason =>
    match errorNumber code with
    | 20 => .notDirectory
    | 21 => .isDirectory
    | number => .other number reason
  | .invalidArgument _ code reason =>
    match errorNumber code with
    | 36 => .nameTooLong
    | number => .other number reason
  | e => .other 5 e.toString

def readContent (path : String) : IO FileContent := do
  try
    return .ok (← IO.FS.readBinFile path)
  catch e =>
    return .error (fileError e)

def currentInstant : IO Instant := do
  return .ofNanoseconds (← Std.Time.Timestamp.now).toNanosecondsSinceUnixEpoch.val

def surroundings (args : List String) : IO Surroundings := do
  let calledName := (← IO.appPath).fileName.getD ""
  let home ← IO.getEnv "HOME"
  let contents ← (paths home args).mapM fun path => return (path, ← readContent path)
  let now ← currentInstant
  return { calledName
           files := fun path => (contents.lookup path).getD (.error .notFound)
           home
           now := now.text
           nowInMilliseconds := now.millisecondText }

def writeOutput (exit : Exit) : IO Exit := do
  match exit.output with
  | none => return exit
  | some (path, text) =>
    try
      IO.FS.writeFile path text
      return exit
    catch e =>
      return .unwritten path (fileError e)

end MediaCache.Main

def main (args : List String) : IO UInt32 := do
  let exit ← MediaCache.Main.writeOutput (MediaCache.CommandLine.run (← MediaCache.Main.surroundings args) args)
  (← IO.getStdout).putStr exit.stdout
  (← IO.getStderr).putStr exit.stderr
  return UInt32.ofNat exit.code
