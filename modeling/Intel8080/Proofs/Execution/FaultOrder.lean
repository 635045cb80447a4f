import Intel8080.Proofs.Execution.Step

/-!
# Which fault a step reports

The stages of a step are fetching, refusing the opcode, looking for a device and touching
data, and the first that fails is the one reported. Two consequences do not depend on the
program: a memory that covers the address space is never left, and a conditional call or
return that is not taken has no stack to fail on.
-/

namespace Intel8080

namespace Processor

variable {σ : Type}

@[simp] theorem prepared_opcodeAddress (p : Processor σ) :
    p.prepared.core.opcodeAddress = p.core.registers.pc := by
  unfold prepared
  split <;> rfl

theorem accessFault?_of_covering {p : Processor σ} (addresses : List UInt16)
    (h : Memory.addressSpace ≤ p.memory.capacity) : p.accessFault? addresses = none := by
  rw [accessFault?, Memory.firstOutside?_of_covering addresses h]
  rfl

/-! ## Covering memories -/

theorem missingHandler?_ne_outOfBounds (operation : Operation) (p : Processor σ)
    (access : OutOfBounds) : operation.missingHandler? p ≠ some (.outOfBounds access) := by
  intro missing
  unfold Operation.missingHandler? at missing
  split at missing
  · split at missing <;> cases missing
  · split at missing <;> cases missing
  · cases missing

theorem opcodeFault?_ne_outOfBounds {p : Processor σ}
    (h : Memory.addressSpace ≤ p.memory.capacity) (access : OutOfBounds) :
    p.opcodeFault? ≠ some (.outOfBounds access) := by
  intro failing
  by_cases refused : Opcode.Refused p.core.opcode
  · rw [opcodeFault?, if_pos refused] at failing
    cases failing
  · obtain ⟨operation, line⟩ := exists_operation refused
    rw [opcodeFault?, if_neg refused, line, Option.bind_some, Operation.fault?,
      accessFault?_of_covering _ h, Option.or_none] at failing
    exact missingHandler?_ne_outOfBounds operation p access failing

theorem stepFault?_of_covering {p : Processor σ} (h : Memory.addressSpace ≤ p.memory.capacity) :
    p.stepFault? = p.prepared.opcodeFault? := by
  have ready : p.preparationFault? = none := by
    unfold preparationFault?
    split
    · rfl
    · exact accessFault?_of_covering _ h
  rw [stepFault?, ready, Option.none_or]

theorem stepFault?_ne_outOfBounds {p : Processor σ}
    (h : Memory.addressSpace ≤ p.memory.capacity) (access : OutOfBounds) :
    p.stepFault? ≠ some (.outOfBounds access) := by
  rw [stepFault?_of_covering h]
  exact opcodeFault?_ne_outOfBounds (by simpa using h) access

theorem step_of_covering {p : Processor σ} {operation : Operation}
    (h : Memory.addressSpace ≤ p.memory.capacity)
    (accepted : ¬ Opcode.Refused p.prepared.core.opcode)
    (line : p.prepared.operation? = some operation)
    (connected : operation.missingHandler? p.prepared = none) :
    p.step = (.ok (operation.duration p.core.flags), operation.meaning p.prepared) := by
  have inside : p.prepared.accessFault? (operation.touched p.prepared.core) = none :=
    accessFault?_of_covering _ (by simpa using h)
  have faultless : p.stepFault? = none := by
    rw [stepFault?_of_covering h, opcodeFault?, if_neg accepted, line, Option.bind_some,
      Operation.fault?, connected, inside, Option.none_or]
  rw [step_of_no_fault faultless, opcodeMeaning, line, prepared_flags]

theorem step_of_refused {p : Processor σ} (h : Memory.addressSpace ≤ p.memory.capacity)
    (refused : Opcode.Refused p.prepared.core.opcode) :
    p.step = (.error (.unimplementedOpcode p.prepared.core.opcode p.core.registers.pc), p) := by
  have failing : p.stepFault? =
      some (.unimplementedOpcode p.prepared.core.opcode p.core.registers.pc) := by
    rw [stepFault?_of_covering h, opcodeFault?, if_pos refused, prepared_opcodeAddress]
  exact step_of_stepFault? failing

/-! ## Untaken branches -/

private theorem operation?_of_refused : ∀ opcode ∈ Opcode.halt :: Opcode.undefined,
    (Opcode.entry opcode).operation? = none ∨
      (Opcode.entry opcode).operation? = some .nop := by
  decide +kernel

theorem not_refused_of_operation? {p : Processor σ} {operation : Operation}
    (line : p.operation? = some operation) (h : operation ≠ .nop) :
    ¬ Opcode.Refused p.core.opcode := by
  intro refused
  have listed : p.core.opcode ∈ Opcode.halt :: Opcode.undefined := by
    rcases refused with slot | halt
    · exact List.mem_cons_of_mem _ slot
    · rw [halt]
      exact List.mem_cons_self
  rcases operation?_of_refused _ listed with unnamed | idle
  · cases line.symm.trans unnamed
  · cases line.symm.trans idle
    exact h rfl

theorem opcodeFault?_of_untaken {p : Processor σ} {condition : Condition}
    (line : p.operation? = some (.ccc condition) ∨ p.operation? = some (.rcc condition))
    (untaken : Manual.met p.core.flags condition = false) : p.opcodeFault? = none := by
  have accepted : ¬ Opcode.Refused p.core.opcode := by
    rcases line with line | line
    · exact not_refused_of_operation? line (by simp)
    · exact not_refused_of_operation? line (by simp)
  rcases line with line | line
  · simp [opcodeFault?, accepted, line, Operation.fault?, Operation.missingHandler?,
      Operation.touched, untaken, accessFault?]
  · simp [opcodeFault?, accepted, line, Operation.fault?, Operation.missingHandler?,
      Operation.touched, untaken, accessFault?]

/-- An untaken conditional call or return succeeds as soon as it has been fetched. -/
theorem stepFault?_of_untaken {p : Processor σ} {condition : Condition}
    (line : p.prepared.operation? = some (.ccc condition) ∨
      p.prepared.operation? = some (.rcc condition))
    (untaken : Manual.met p.core.flags condition = false) : p.stepFault? = p.preparationFault? := by
  rw [stepFault?, opcodeFault?_of_untaken line (by simpa using untaken), Option.or_none]

/-! ## The order of faults -/

/-- A step fails with the first of its faults and succeeds if it has none. An opcode is
refused under the address at which it was fetched or accepted, and any other opcode names
the operation whose device and data come next. -/
theorem step_error_iff_first_fault (p : Processor σ) :
    (∀ fault, p.step.1 = .error fault ↔ p.stepFault? = some fault) ∧
      ((∃ cost, p.step.1 = .ok cost) ↔ p.stepFault? = none) ∧
      p.prepared.core.opcodeAddress = p.core.registers.pc ∧
      (¬ Opcode.Refused p.prepared.core.opcode →
        ∃ operation, p.prepared.operation? = some operation) ∧
      (Memory.addressSpace ≤ p.memory.capacity →
        ∀ access, p.step.1 ≠ .error (.outOfBounds access)) ∧
      ∀ condition, p.prepared.operation? = some (.ccc condition) ∨
          p.prepared.operation? = some (.rcc condition) →
        Manual.met p.core.flags condition = false →
        p.stepFault? = p.preparationFault? := by
  refine ⟨fun _ => step_error_iff, step_ok_iff, p.prepared_opcodeAddress, exists_operation,
    ?_, ?_⟩
  · intro covering access failing
    exact stepFault?_ne_outOfBounds covering access (step_error_iff.mp failing)
  · intro condition line untaken
    exact stepFault?_of_untaken line untaken

/-- CNZ with the zero flag set, and a stack that lies outside the three bytes of memory. -/
def untakenCall : Processor Unit where
  core := { Core.cleared with flags := { Flags.cleared with zero := true } }
  memory := ⟨⟨#[0xc4, 0x00, 0x00]⟩⟩
  ports := ⟨(), none, none⟩

theorem step_error_iff_first_fault_untakenCall :
    (∃ cost, untakenCall.step.1 = .ok cost) ∧
      ∀ access, (new (.zeroed Memory.addressSpace) untakenCall.ports).step.1 ≠
        .error (.outOfBounds access) := by
  have line : untakenCall.prepared.operation? = some (.ccc .notZero) := by decide +kernel
  obtain ⟨-, succeeds, -, -, -, untaken⟩ := step_error_iff_first_fault untakenCall
  obtain ⟨-, -, -, -, covered, -⟩ :=
    step_error_iff_first_fault (new (.zeroed Memory.addressSpace) untakenCall.ports)
  refine ⟨succeeds.mpr ?_, covered ?_⟩
  · rw [untaken .notZero (.inl line) rfl]
    rfl
  · exact Nat.le_of_eq (Memory.capacity_zeroed _).symm

end Processor

end Intel8080
