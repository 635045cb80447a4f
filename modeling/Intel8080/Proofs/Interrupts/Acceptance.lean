import Intel8080.Proofs.Execution.Refinement

/-!
# Accepting an interrupt

A step readies an opcode and executes it. It dispatches a request when it readies the
opcode of the request with everything else in the core as it stands; that happens exactly
under INTE and a full slot. What the opcode then does is what it does anywhere, so only
EI and DI change INTE, and only success empties the slot.
-/

namespace Intel8080

/-- INTE after an operation that finds it as given. -/
def Operation.interruptsAfter (enabled : Bool) : Operation → Bool
  | .ei => true
  | .di => false
  | _ => enabled

namespace Processor

variable {σ : Type} {p q : Processor σ} {vector : UInt8} {cost : Nat} {fault : Fault}

/-- The processor with a request accepted: its opcode is the one to execute, PC and the
operand latches are as they were. -/
def accepted (p : Processor σ) (vector : UInt8) : Processor σ :=
  { p with core := p.core.accept vector }

/-- The next step readies the opcode of a request, and nothing else changes before it is
executed. -/
def Dispatches (p : Processor σ) (vector : UInt8) : Prop :=
  Exec.acceptOrFetch p = .ok () (p.accepted vector)

/-! ## When a step dispatches -/

theorem fetched_pc_ne (p : Processor σ) : p.fetched.core.registers.pc ≠ p.core.registers.pc := by
  have moved : p.fetched.core.registers.pc =
      p.core.registers.pc + UInt16.ofNat p.instructionLength := rfl
  rw [moved]
  rcases p.instructionLength_cases with h | h | h <;> rw [h] <;> grind

theorem dispatches_iff_acceptable : p.Dispatches vector ↔ p.core.acceptable = some vector := by
  unfold Dispatches
  rw [Exec.acceptOrFetch_eq]
  cases waiting : p.core.acceptable with
  | some other =>
      have ready : p.preparationFault? = none := by rw [preparationFault?, waiting]
      rw [ready, prepared_of_acceptable waiting]
      constructor
      · intro same
        have taken : { p with core := p.core.accept other } = p.accepted vector := by
          injection same
        have opcodes : other = vector := congrArg (fun q => q.core.opcode) taken
        exact congrArg some opcodes
      · intro same
        cases same
        rfl
  | none =>
      rw [prepared_of_fetching waiting]
      constructor
      · intro same
        cases faulty : p.preparationFault? with
        | some fault =>
            rw [faulty] at same
            cases same
        | none =>
            rw [faulty] at same
            have still : p.fetched = p.accepted vector := by
              injection same
            have stuck : p.fetched.core.registers.pc = p.core.registers.pc := by
              rw [still]
              rfl
            exact absurd stuck p.fetched_pc_ne
      · intro impossible
        cases impossible

theorem dispatches_iff :
    p.Dispatches vector ↔
      p.core.interruptsEnabled = true ∧ p.core.pendingInterrupt = some vector :=
  dispatches_iff_acceptable.trans Core.acceptable_eq_some_iff

/-! ## What a dispatch executes -/

/-- A dispatch executes the opcode of the request on the registers as they stand. Nothing
is read to find the instruction, so only the opcode itself can fail. -/
theorem step_of_dispatches (h : p.Dispatches vector) :
    p.step =
      match (p.accepted vector).opcodeFault? with
      | some fault => (.error fault, p)
      | none => (.ok (p.accepted vector).opcodeMeaning.1, (p.accepted vector).opcodeMeaning.2) := by
  have waiting := dispatches_iff_acceptable.mp h
  have ready : p.preparationFault? = none := by rw [preparationFault?, waiting]
  rw [step_eq, stepFault?, ready, Option.none_or, prepared_of_acceptable waiting]
  rfl

theorem operation_of_dispatch (h : p.Dispatches vector) (stepped : p.step = (.ok cost, q)) :
    ∃ operation, (Opcode.entry vector).operation? = some operation ∧
      cost = operation.duration p.core.flags ∧
      q = operation.meaning (p.accepted vector) ∧
      q.core.registers.w = p.core.registers.w ∧ q.core.registers.z = p.core.registers.z := by
  have waiting := dispatches_iff_acceptable.mp h
  obtain ⟨operation, line, paid, rfl⟩ := exists_operation_of_step stepped
  rw [prepared_of_acceptable waiting] at line ⊢
  have kept := (operation.frame_meaning (p.accepted vector)).latches
  exact ⟨operation, line, paid, rfl, kept⟩

/-! ## The slot and INTE after a step -/

theorem step_error_keeps (h : p.step.1 = .error fault) : p.step.2 = p := by
  rw [step_of_stepFault? (step_error_iff.mp h)]

theorem eq_of_step_error (h : p.step = (.error fault, q)) : q = p := by
  have kept := step_error_keeps (congrArg Prod.fst h)
  rwa [h] at kept

@[simp] theorem prepared_interruptsEnabled (p : Processor σ) :
    p.prepared.core.interruptsEnabled = p.core.interruptsEnabled := by
  unfold prepared
  split <;> rfl

theorem prepared_pendingInterrupt (p : Processor σ) :
    p.prepared.core.pendingInterrupt =
      if p.core.acceptable.isSome then none else p.core.pendingInterrupt := by
  cases waiting : p.core.acceptable with
  | some vector =>
      rw [prepared_of_acceptable waiting]
      rfl
  | none =>
      rw [prepared_of_fetching waiting]
      rfl

/-- A successful step empties the slot if it dispatched, and leaves it alone otherwise. -/
theorem pendingInterrupt_of_step (h : p.step = (.ok cost, q)) :
    q.core.pendingInterrupt =
      if p.core.acceptable.isSome then none else p.core.pendingInterrupt := by
  obtain ⟨operation, -, -, rfl⟩ := exists_operation_of_step h
  rw [(operation.frame_meaning p.prepared).pending, prepared_pendingInterrupt]

theorem pendingInterrupt_of_dispatch (h : p.Dispatches vector) (stepped : p.step = (.ok cost, q)) :
    q.core.pendingInterrupt = none := by
  rw [pendingInterrupt_of_step stepped, dispatches_iff_acceptable.mp h]
  rfl

theorem pendingInterrupt_of_disabled (h : p.core.interruptsEnabled = false) :
    p.step.2.core.pendingInterrupt = p.core.pendingInterrupt := by
  cases stepped : p.step with
  | mk outcome q =>
      cases outcome with
      | error fault =>
          rw [eq_of_step_error stepped]
      | ok cost =>
          rw [pendingInterrupt_of_step stepped, Core.acceptable_of_disabled h]
          rfl

/-- Only EI and DI decide about INTE, whether they were fetched or dispatched. -/
theorem interruptsEnabled_of_step (h : p.step = (.ok cost, q)) :
    ∃ operation, p.prepared.operation? = some operation ∧
      q.core.interruptsEnabled = operation.interruptsAfter p.core.interruptsEnabled := by
  obtain ⟨operation, line, -, rfl⟩ := exists_operation_of_step h
  refine ⟨operation, line, ?_⟩
  by_cases enables : operation = .ei
  · subst enables
    rfl
  · by_cases disables : operation = .di
    · subst disables
      rfl
    · have kept := (operation.frame_meaning p.prepared).interrupts enables disables
      rw [kept, prepared_interruptsEnabled]
      cases operation with
      | ei => exact absurd rfl enables
      | di => exact absurd rfl disables
      | _ => rfl

end Processor

end Intel8080
