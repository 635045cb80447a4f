import Intel8080.Diagnostic.Basic
import Intel8080.Invaders.Headless
import Intel8080.Text.Decimal

/-!
# The command line

The first argument names a system, the second the file with the program, and the
third, which only the arcade machine takes, a number of frames. The arguments are
checked before the file is read, in a fixed order: system, frames, file name.
-/

namespace Intel8080.CommandLine

inductive Command where
  | diagnostic
  | invaders (frames : Nat)
  deriving DecidableEq

structure Request where
  command : Command
  path : String
  deriving DecidableEq

inductive Failure where
  | unknownSystem (name : String)
  | invalidFrameCount (text : String) (error : Decimal.ReadError)
  | noPath
  | unreadableFile (path reason : String)
  | diagnostic (failure : Diagnostic.Failure)
  | invaders (failure : Invaders.RunFailure)
  deriving DecidableEq

namespace Failure

def message : Failure → String
  | .unknownSystem name =>
      s!"Unknown system '{name}'.\nUsage: retro8080 <diag|invaders> <rom> [frames]"
  | .invalidFrameCount text _ => s!"invalid frame count '{text}'"
  | .noPath =>
      "No ROM path provided.\nFor example: retro8080 diag assets/roms/8080_tests/cpudiag.bin"
  | .unreadableFile path _ => s!"Failed to read '{path}'"
  | .diagnostic failure => failure.message
  | .invaders failure => failure.message

def cause? : Failure → Option String
  | .unknownSystem _ => none
  | .invalidFrameCount _ error => some error.message
  | .noPath => none
  | .unreadableFile _ reason => some reason
  | .diagnostic failure => failure.cause?
  | .invaders failure => some failure.fault.message

def report (failure : Failure) : String :=
  let top := "Error: " ++ failure.message ++ "\n"
  match failure.cause? with
  | none => top
  | some cause => top ++ "\nCaused by:\n    " ++ cause ++ "\n"

end Failure

def defaultFrames : Nat := 600

def frameCountBound : Nat := 0x100000000

def readFrames : Option String → Except Failure Nat
  | none => .ok defaultFrames
  | some text =>
      match Decimal.read frameCountBound text with
      | .ok frames => .ok frames
      | .error error => .error (.invalidFrameCount text error)

def readCommand (system : String) (frames : Option String) : Except Failure Command := do
  if system ∈ ["diag", "cpudiag"] then
    return .diagnostic
  else if system ∈ ["space_invaders", "space-invaders", "invaders"] then
    return .invaders (← readFrames frames)
  else
    throw (.unknownSystem system)

/-- Reads the arguments. A missing one counts as empty, except for the number of
frames; arguments after the third are ignored. -/
def Request.ofArguments (arguments : List String) : Except Failure Request := do
  let command ← readCommand (arguments[0]?.getD "") arguments[2]?
  let path := arguments[1]?.getD ""
  if path.isEmpty then
    throw .noPath
  return ⟨command, path⟩

def Command.run (rom : ByteArray) : Command → Except Failure String
  | .diagnostic =>
      match (Diagnostic.run rom .cpudiag (.opened none)).1 with
      | .ok report => .ok (report.output ++ "\n")
      | .error failure => .error (.diagnostic failure)
  | .invaders frames =>
      match (Invaders.runHeadless rom frames (.opened none)).1 with
      | .ok summary =>
          .ok (s!"ran {summary.frames} frames ({summary.cycles} cycles), " ++
            s!"{summary.litPixels} pixels lit\n")
      | .error failure => .error (.invaders failure)

structure Outcome where
  exitCode : UInt32
  output : String
  errors : String
  deriving DecidableEq

/-- Success prints the result, failure prints only the report. -/
def Outcome.ofResult : Except Failure String → Outcome
  | .ok output => ⟨0, output, ""⟩
  | .error failure => ⟨1, "", failure.report⟩

/-- The whole program. `readFile` gives the contents of a file or the reason why
there are none; it is asked at most once, after the arguments have been found
good. -/
def run {m : Type → Type} [Monad m] (readFile : String → m (Except String ByteArray))
    (arguments : List String) : m Outcome := do
  match Request.ofArguments arguments with
  | .error failure => return .ofResult (.error failure)
  | .ok request =>
      match ← readFile request.path with
      | .error reason => return .ofResult (.error (.unreadableFile request.path reason))
      | .ok rom => return .ofResult (request.command.run rom)

end Intel8080.CommandLine
