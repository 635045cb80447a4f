import Intel8080.Processor.Execute

/-!
# Steps

One step executes one instruction, or one opcode that an accepted interrupt puts
on the bus, and says how many clock cycles that took. A step that fails puts the
core back as it was.
-/

namespace Intel8080

namespace Exec

variable {σ : Type}

def dispatch : Exec σ Nat := do
  let c ← core
  match Operation.decode c.opcode with
  | some operation => operation.execute
  | none => throw (.unimplementedOpcode c.opcode c.opcodeAddress)

/-- Accepts the pending interrupt if interrupts are enabled; otherwise fetches
the instruction at PC. -/
def acceptOrFetch : Exec σ Unit := do
  let c ← core
  match c.acceptable with
  | some vector => setCore (c.accept vector)
  | none => fetch

/-- One step, without putting anything back on a fault. -/
def advance : Exec σ Nat := do
  acceptOrFetch
  dispatch

end Exec

namespace Processor

variable {σ : Type}

/-- One step. The result is its cost in cycles, or the fault that prevented it;
after a fault the core is what it was before. -/
def step (p : Processor σ) : Except Fault Nat × Processor σ :=
  let before := p.core
  match Exec.advance p with
  | .ok cost after => (.ok cost, after)
  | .error fault after => (.error fault, { after with core := before })

end Processor

end Intel8080
