import Intel8080.Monitor
import Intel8080.Proofs.Execution.Step

/-!
# Failed steps leave no trace

A step that fails puts back the core only. That memory and devices are as before is due
to each operation, which has its last chance to fail before its first store and before
its only port access. Calls of a device are made visible by devices that keep a log.
-/

namespace Intel8080

variable {σ : Type}

/-- The same devices, which also keep a log of the accesses to them. -/
def Ports.logged (ports : Ports σ) : Ports (σ × List PortAccess) where
  device := (ports.device, [])
  input := ports.input.map fun handler port (device, log) =>
    let (value, device) := handler port device
    (value, device, log ++ [.read port])
  output := ports.output.map fun handler port value (device, log) =>
    (handler port value device, log ++ [.write port value])

namespace Processor

def logged (p : Processor σ) : Processor (σ × List PortAccess) :=
  ⟨p.core, p.memory, p.ports.logged⟩

theorem prepared_logged (p : Processor σ) : p.logged.prepared = p.prepared.logged := by
  cases waiting : p.core.acceptable with
  | some vector =>
      have alike : p.logged.core.acceptable = some vector := waiting
      rw [prepared_of_acceptable waiting, prepared_of_acceptable alike]
      rfl
  | none =>
      have alike : p.logged.core.acceptable = none := waiting
      rw [prepared_of_fetching waiting, prepared_of_fetching alike]
      rfl

theorem preparationFault?_logged (p : Processor σ) :
    p.logged.preparationFault? = p.preparationFault? := rfl

theorem fault?_logged (operation : Operation) (p : Processor σ) :
    operation.fault? p.logged = operation.fault? p := by
  have handler : operation.missingHandler? p.logged = operation.missingHandler? p := by
    cases operation <;> simp [Operation.missingHandler?, logged, Ports.logged]
  rw [Operation.fault?, handler]
  rfl

/-- A log has no influence on whether a step fails, and on how. -/
theorem stepFault?_logged (p : Processor σ) : p.logged.stepFault? = p.stepFault? := by
  have executing : p.prepared.logged.opcodeFault? = p.prepared.opcodeFault? := by
    unfold opcodeFault?
    simp only [fault?_logged]
    rfl
  rw [stepFault?, prepared_logged, executing, preparationFault?_logged]
  rfl

/-- A step that fails leaves core, memory and devices as they were and makes no access
to a port, so that the next step fails in the same way. -/
theorem step_error_unchanged {p : Processor σ} {fault : Fault} (h : p.step.1 = .error fault) :
    p.step.2 = p ∧ p.step.2.step = (.error fault, p) ∧
      p.logged.step = (.error fault, p.logged) := by
  have faulty := step_error_iff.mp h
  have undone : p.step = (.error fault, p) := step_of_stepFault? faulty
  refine ⟨?_, ?_, ?_⟩
  · rw [undone]
  · rw [undone]
    exact undone
  · exact step_of_stepFault? (p.stepFault?_logged.trans faulty)

/-- A call in three bytes of memory, at a stack pointer for which the low byte of the
return address would still fit and the high byte does not. -/
def straddlingCall : Processor Unit where
  core := { Core.cleared with registers := { Registers.cleared with sp := 4 } }
  memory := ⟨⟨#[0xcd, 0x00, 0x00]⟩⟩
  ports := ⟨(), none, none⟩

theorem step_error_unchanged_straddlingCall :
    straddlingCall.step.1 = .error (.outOfBounds ⟨3, 1, 3⟩) ∧
      straddlingCall.step.2 = straddlingCall ∧
      straddlingCall.step.2.step = (.error (.outOfBounds ⟨3, 1, 3⟩), straddlingCall) ∧
      straddlingCall.logged.step = (.error (.outOfBounds ⟨3, 1, 3⟩), straddlingCall.logged) :=
  ⟨rfl, step_error_unchanged rfl⟩

end Processor

end Intel8080
