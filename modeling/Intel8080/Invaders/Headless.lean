import Intel8080.Invaders.Machine

/-!
# Running without a screen

Runs a program for some frames on a machine with the standard configuration and
sums up what happened.
-/

namespace Intel8080.Invaders

structure Summary where
  frames : Nat
  cycles : Nat
  litPixels : Nat
  deriving DecidableEq

inductive RunFailure where
  | romTooLarge (access : OutOfBounds)
  /-- The processor stopped in a frame, counted from zero, with its core as it was
  before the step that failed. -/
  | frameFault (frame : Nat) (core : Core) (fault : Fault)
  deriving DecidableEq

namespace RunFailure

def message : RunFailure → String
  | .romTooLarge _ => "ROM does not fit in memory"
  | .frameFault frame core _ => s!"CPU fault in frame {frame} ({core.dump})"

def fault : RunFailure → Fault
  | .romTooLarge access => .outOfBounds access
  | .frameFault _ _ fault => fault

end RunFailure

namespace Machine

/-- Runs frame after frame. `done` of them are over and have spent `cycles`. -/
def runFrames : (remaining done cycles : Nat) → Machine → Except RunFailure Summary × Machine
  | 0, done, cycles, m => (.ok ⟨done, cycles, m.litPixels⟩, m)
  | remaining + 1, done, cycles, m =>
      match m.stepFrame with
      | (.ok spent, m) => runFrames remaining (done + 1) (cycles + spent) m
      | (.error fault, m) => (.error (.frameFault done m.cpu.processor.core fault), m)

end Machine

/-- Runs a program for a number of frames. The journal of the run comes with the
result. -/
def runHeadless (rom : ByteArray) (frames : Nat) (journal : Journal) :
    Except RunFailure Summary × Journal :=
  match (Machine.new .standard journal).loadRom rom with
  | .error access => (.error (.romTooLarge access), journal)
  | .ok machine =>
      let (result, m) := machine.runFrames frames 0 0
      (result, m.cpu.journal)

end Intel8080.Invaders
