import Intel8080.CommandLine

/-!
# Entry point

Reads the file that the arguments name, prints the outcome and sets the exit code.
-/

namespace Intel8080.Main

/-- The reason for a failed system call, in the system's own words. -/
def reasonOf (details : String) (code : UInt32) : String :=
  s!"{details} (os error {code})"

def describe : IO.Error → String
  | .noFileOrDirectory _ code details => reasonOf details code
  | .permissionDenied _ code details => reasonOf details code
  | .inappropriateType _ code details => reasonOf details code
  | .invalidArgument _ code details => reasonOf details code
  | .resourceExhausted _ code details => reasonOf details code
  | .hardwareFault code details => reasonOf details code
  | .otherError code details => reasonOf details code
  | error => toString error

/-- The contents of a file, or the reason why there are none. -/
def readFile (path : String) : IO (Except String ByteArray) := do
  try
    return .ok (← IO.FS.withFile path .read fun handle => handle.readBinToEnd)
  catch error =>
    return .error (describe error)

end Intel8080.Main

def main (arguments : List String) : IO UInt32 := do
  let outcome ← Intel8080.CommandLine.run Intel8080.Main.readFile arguments
  IO.print outcome.output
  IO.eprint outcome.errors
  return outcome.exitCode
