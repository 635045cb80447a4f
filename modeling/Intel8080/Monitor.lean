import Intel8080.Journal.Basic
import Intel8080.Processor.Step

/-!
# A processor under observation

A monitor runs a processor and keeps a journal of it. What a step has to report
is a function of the state before it, so watching never disturbs the run: the
processor inside goes through the same states as one that nobody watches.
-/

namespace Intel8080

inductive PortAccess where
  | read (port : UInt8)
  | write (port value : UInt8)
  deriving DecidableEq

namespace Processor

variable {σ : Type}

def operationNotices (core : Core) (ports : Ports σ) (remark : PortAccess → List Notice) :
    List Notice :=
  match Operation.decode core.opcode with
  | some .di => [.interruptsDisabled core.opcodeAddress]
  | some .ei => [.interruptsEnabled core.opcodeAddress]
  | some .input => if ports.input.isSome then remark (.read core.registers.z) else []
  | some .output =>
      if ports.output.isSome then remark (.write core.registers.z core.registers.a) else []
  | _ => []

/-- What the next step has to report: an acceptance or a fetch, and then the
operation itself. A fetch that fails is not reported. -/
def stepNotices (p : Processor σ) (remark : PortAccess → List Notice) : List Notice :=
  match p.core.acceptable with
  | some vector =>
      .interruptAccepted vector p.core.registers.pc ::
        operationNotices (p.core.accept vector) p.ports remark
  | none =>
      match Exec.fetch p with
      | .ok _ fetched => .fetched fetched.core :: operationNotices fetched.core p.ports remark
      | .error _ _ => []

def requestNotices (p : Processor σ) (vector : UInt8) : List Notice :=
  match p.core.pendingInterrupt with
  | some dropped => [.interruptReplaced dropped vector]
  | none => []

end Processor

/-- A processor, the journal of its run, and what its devices have to say about a
port access. -/
structure Monitor (σ : Type) where
  processor : Processor σ
  journal : Journal
  remark : PortAccess → List Notice

structure RunTally where
  steps : Nat
  cycles : Nat
  deriving DecidableEq

namespace Monitor

variable {σ : Type}

def silent (_ : PortAccess) : List Notice := []

def note (m : Monitor σ) (notice : Notice) : Monitor σ :=
  { m with journal := m.journal.note notice }

def modify (m : Monitor σ) (f : Processor σ → Processor σ) : Monitor σ :=
  { m with processor := f m.processor }

def step : Monitor σ → Except Fault Nat × Monitor σ
  | ⟨processor, journal, remark⟩ =>
      let journal := journal.record fun _ => processor.stepNotices remark
      let (outcome, processor) := processor.step
      (outcome, ⟨processor, journal, remark⟩)

def requestInterrupt (m : Monitor σ) (vector : UInt8) : Monitor σ :=
  { m with
    processor := m.processor.requestInterrupt vector
    journal := m.journal.record fun _ => m.processor.requestNotices vector }

/-- Steps at most `limit` times. A run ends early after a fault, and after a step
that leaves PC at `stop`. -/
def run (stop : Option UInt16) : Nat → RunTally → Monitor σ →
    Option Fault × RunTally × Monitor σ
  | 0, tally, m => (none, tally, m)
  | limit + 1, tally, m =>
      match m.step with
      | (.error fault, m) => (some fault, tally, m)
      | (.ok cost, m) =>
          let tally := ⟨tally.steps + 1, tally.cycles + cost⟩
          if stop = some m.processor.core.registers.pc then (none, tally, m)
          else run stop limit tally m

@[simp] theorem processor_note (m : Monitor σ) (notice : Notice) :
    (m.note notice).processor = m.processor := rfl

theorem step_processor (m : Monitor σ) : (m.step).2.processor = m.processor.step.2 := rfl

theorem step_outcome (m : Monitor σ) : (m.step).1 = m.processor.step.1 := rfl

end Monitor

end Intel8080
