import Intel8080.Proofs.Execution.Step
import Intel8080.Proofs.Manual.Footprint

/-!
# The data sheet and the decoder describe one machine

Decoding reads the bits of an opcode and fetching reads its line of the data sheet. A
step that fetches and succeeds is the reference step, which reads nothing but the sheet
and the manual, and beyond the fetch it changes only what the instruction names.
-/

namespace Intel8080

namespace Processor

variable {σ : Type} {p q : Processor σ} {cost : Nat}

theorem not_refused_of_opcodeFault?_eq_none (h : p.opcodeFault? = none) :
    ¬ Opcode.Refused p.core.opcode := by
  intro refused
  rw [opcodeFault?, if_pos refused] at h
  cases h

theorem exists_operation_of_step (h : p.step = (.ok cost, q)) :
    ∃ operation, p.prepared.operation? = some operation ∧
      cost = operation.duration p.core.flags ∧ q = operation.meaning p.prepared := by
  have faultless : p.stepFault? = none := step_ok_iff.mp ⟨cost, by rw [h]⟩
  obtain ⟨-, executable⟩ := Option.or_eq_none_iff.mp faultless
  have accepted : ¬ Opcode.Refused p.prepared.core.opcode :=
    not_refused_of_opcodeFault?_eq_none executable
  obtain ⟨operation, line⟩ := exists_operation accepted
  have done := step_of_no_fault faultless
  rw [h, opcodeMeaning, line, prepared_flags] at done
  cases done
  exact ⟨operation, line, rfl, rfl⟩

/-- A successful step does what the bits of its opcode say. -/
theorem meaning_of_step (h : p.step = (.ok cost, q)) {operation : Operation}
    (decoded : Operation.decode p.prepared.core.opcode = some operation) :
    cost = operation.duration p.core.flags ∧ q = operation.meaning p.prepared ∧
      operation.fault? p.prepared = none := by
  obtain ⟨named, line, rfl, rfl⟩ := exists_operation_of_step h
  obtain ⟨-, executable⟩ := Option.or_eq_none_iff.mp (step_ok_iff.mp ⟨_, congrArg Prod.fst h⟩)
  have accepted := not_refused_of_opcodeFault?_eq_none executable
  obtain rfl : named = operation :=
    Option.some.inj (line.symm.trans ((Operation.decode_eq_operation? accepted).symm.trans decoded))
  rw [opcodeFault?, if_neg accepted, line] at executable
  exact ⟨rfl, rfl, executable⟩

/-- A step that fetches and succeeds is the reference step. What the instruction does
not name is as the fetch has left it, which itself moves PC and fills Z and W. -/
theorem step_eq_reference
    (fetching : p.core.interruptsEnabled = false ∨ p.core.pendingInterrupt = none)
    (h : p.step = (.ok cost, q)) :
    p.referenceStep? = some (cost, q) ∧
      ∃ operation, (Opcode.entry (p.peek p.core.registers.pc)).operation? = some operation ∧
        operation.Frame p.fetched q ∧
        (operation.storedAddresses p.fetched.core.registers).length ≤ 2 := by
  have idle : p.core.acceptable = none :=
    fetching.elim Core.acceptable_of_disabled Core.acceptable_of_idle
  obtain ⟨operation, line, rfl, rfl⟩ := exists_operation_of_step h
  rw [prepared_of_fetching idle] at line ⊢
  have named : (Opcode.entry (p.peek p.core.registers.pc)).operation? = some operation := line
  refine ⟨?_, operation, named, ?_, ?_⟩
  · rw [referenceStep?, named]
    rfl
  · exact operation.frame_meaning p.fetched
  · exact operation.length_storedAddresses _

/-- CNZ 0005 in eight bytes of memory, with the zero flag clear and SP behind them. -/
def callingUnlessZero : Processor Unit where
  core := { Core.cleared with registers := { Registers.cleared with sp := 0x0008 } }
  memory := ⟨⟨#[0xC4, 0x05, 0x00, 0x00, 0x00, 0x00, 0x00, 0x00]⟩⟩
  ports := ⟨(), none, none⟩

theorem step_eq_reference_callingUnlessZero :
    callingUnlessZero.core.pendingInterrupt = none ∧
      callingUnlessZero.step.2.memory =
        ⟨⟨#[0xC4, 0x05, 0x00, 0x00, 0x00, 0x00, 0x03, 0x00]⟩⟩ ∧
      callingUnlessZero.step.2.core.registers.pc = 0x0005 ∧
      callingUnlessZero.referenceStep? = some (17, callingUnlessZero.step.2) ∧
      ∃ operation, (Opcode.entry (callingUnlessZero.peek 0)).operation? = some operation ∧
        operation.Frame callingUnlessZero.fetched callingUnlessZero.step.2 ∧
        (operation.storedAddresses callingUnlessZero.fetched.core.registers).length ≤ 2 := by
  have stepped : callingUnlessZero.step = (.ok 17, callingUnlessZero.step.2) := rfl
  exact ⟨rfl, rfl, rfl, step_eq_reference (.inr rfl) stepped⟩

end Processor

end Intel8080
