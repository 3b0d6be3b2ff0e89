import MemberRefs.CommandLine

/-!
# The program

Reads the files that the arguments name, prints the answer and ends with its code.
-/

namespace MemberRefs

/-- Whether a system error has a number, which may be given as its negative. -/
def isSystemError (number code : UInt32) : Bool := code == number || code == 0 - number

/-- The reason why a file cannot be read. -/
def FileError.ofSystem (error : IO.Error) : FileError :=
  match error with
  | .noFileOrDirectory _ _ _ => .notFound
  | .permissionDenied _ _ _ => .denied
  | .inappropriateType _ code _ => if isSystemError 20 code then .notFolder else .isFolder
  | .invalidArgument _ code _ =>
      if isSystemError 36 code then .nameTooLong else .other (toString error)
  | .userError _ => .notText
  | _ => .other (toString error)

/-- The content of a file. -/
def readText (path : String) : IO (Except FileError String) := do
  match ← (IO.FS.readFile path).toBaseIO with
  | .ok text => return .ok text
  | .error error => return .error (.ofSystem error)

end MemberRefs

/-- Answers the request that the arguments make. -/
def main (args : List String) : IO UInt32 := do
  let outcome ← MemberRefs.CommandLine.run MemberRefs.readText args
  (← IO.getStdout).putStr outcome.stdout
  (← IO.getStderr).putStr outcome.stderr
  return outcome.code.toUInt32
