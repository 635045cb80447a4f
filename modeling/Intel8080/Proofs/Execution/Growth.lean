import Intel8080.Proofs.Execution.Refinement
import Intel8080.Proofs.Memory.Growth

/-!
# Steps on a larger memory

A processor touches memory at checked addresses only. On a memory that has grown by a tail,
an operation whose addresses lie inside the smaller memory does the same, and so does a
step that does not fail for want of memory; the tail is neither read nor written.
-/

namespace Intel8080

namespace Processor

variable {σ : Type}

def grown (p : Processor σ) (tail : ByteArray) : Processor σ :=
  { p with memory := p.memory.grown tail }

def Inside (p : Processor σ) (addresses : List UInt16) : Prop :=
  ∀ address ∈ addresses, address.toNat < p.memory.capacity

theorem accessFault?_eq_none_iff {p : Processor σ} {addresses : List UInt16} :
    p.accessFault? addresses = none ↔ p.Inside addresses := by
  rw [accessFault?, Option.map_eq_none_iff, Memory.firstOutside?_eq_none_iff]
  rfl

variable {p : Processor σ} {address : UInt16} (tail : ByteArray)

@[simp] theorem grown_core (p : Processor σ) : (p.grown tail).core = p.core := rfl

theorem inside_grown {addresses : List UInt16} (h : p.Inside addresses) :
    (p.grown tail).Inside addresses := by
  intro address among
  have inside := h address among
  change address.toNat < (p.memory.grown tail).capacity
  rw [Memory.capacity_grown]
  omega

/-! ## Single changes -/

theorem peek_grown (h : address.toNat < p.memory.capacity) :
    (p.grown tail).peek address = p.peek address :=
  Memory.byteAt_grown tail h

theorem poke_grown (value : UInt8) (h : address.toNat < p.memory.capacity) :
    (p.grown tail).poke address value = (p.poke address value).grown tail :=
  congrArg (fun memory => { p with memory }) (Memory.store_grown tail value h)

theorem operand_grown {source : Operand} (h : p.Inside (source.addresses p.core.registers)) :
    (p.grown tail).operand source = p.operand source := by
  cases source with
  | register r => rfl
  | memory => exact peek_grown tail (h _ List.mem_cons_self)

theorem setOperand_grown (value : UInt8) {target : Operand}
    (h : p.Inside (target.addresses p.core.registers)) :
    (p.grown tail).setOperand value target = (p.setOperand value target).grown tail := by
  cases target with
  | register r => rfl
  | memory => exact poke_grown tail value (h _ List.mem_cons_self)

theorem setResult_grown (result : AluResult) {target : Operand}
    (h : p.Inside (target.addresses p.core.registers)) :
    (p.grown tail).setResult result target = (p.setResult result target).grown tail :=
  congrArg (fun q => q.mapFlags fun _ => result.flags) (setOperand_grown tail result.value h)

theorem pokeWord_grown {first second : UInt16} (x y : UInt8)
    (hx : first.toNat < p.memory.capacity) (hy : second.toNat < p.memory.capacity) :
    ((p.grown tail).poke first x).poke second y = ((p.poke first x).poke second y).grown tail := by
  rw [poke_grown tail x hx]
  exact poke_grown tail y (by simpa [poke, Manual.withByte_eq_store] using hy)

theorem pushBytes_grown (high low : UInt8)
    (h : p.Inside [p.core.registers.sp - 2, p.core.registers.sp - 1]) :
    (p.grown tail).pushBytes high low = (p.pushBytes high low).grown tail :=
  congrArg (fun q => q.setSP (p.core.registers.sp - 2))
    (pokeWord_grown tail high low (h _ (by simp)) (h _ (by simp)))

theorem enter_grown (target : UInt16)
    (h : p.Inside [p.core.registers.sp - 2, p.core.registers.sp - 1]) :
    (p.grown tail).enter target = (p.enter target).grown tail :=
  congrArg (fun q => q.goTo target) (pushBytes_grown tail _ _ h)

theorem setStackBytes_grown (high low : UInt8) (target : StackPair) :
    (p.grown tail).setStackBytes high low target =
      (p.setStackBytes high low target).grown tail := by
  cases target <;> rfl

theorem peekWord_grown (h : p.Inside [address, address + 1]) :
    (p.grown tail).peek address = p.peek address ∧
      (p.grown tail).peek (address + 1) = p.peek (address + 1) :=
  ⟨peek_grown tail (h _ (by simp)), peek_grown tail (h _ (by simp))⟩

theorem leave_grown (h : p.Inside [p.core.registers.sp, p.core.registers.sp + 1]) :
    (p.grown tail).leave = p.leave.grown tail := by
  obtain ⟨low, high⟩ := peekWord_grown tail h
  exact congrArg₂
    (fun x y => ((p.goTo (Manual.word x y)).setSP (p.core.registers.sp + 2)).grown tail) high low

theorem ite_grown {taken : Bool} {q r : Processor σ} (h : taken = true → q = r.grown tail) :
    (if taken then q else p.grown tail) = (if taken then r else p).grown tail := by
  cases taken with
  | true => exact h rfl
  | false => rfl

end Processor

namespace Operation

open Processor

variable {σ : Type}

theorem meaning_grown (operation : Operation) {p : Processor σ} (tail : ByteArray)
    (h : p.Inside (operation.touched p.core)) :
    operation.meaning (p.grown tail) = (operation.meaning p).grown tail := by
  cases operation with
  | stax pointer | sta => exact poke_grown tail _ (h _ List.mem_cons_self)
  | ldax pointer | lda =>
      exact congrArg (fun value => (p.setA value).grown tail)
        (peek_grown tail (h _ List.mem_cons_self))
  | shld => exact pokeWord_grown tail _ _ (h _ (by simp [touched])) (h _ (by simp [touched]))
  | lhld =>
      obtain ⟨low, high⟩ := peekWord_grown tail h
      exact congrArg₂ (fun x y => (p.setStackBytes x y .hl).grown tail) high low
  | inr target | dcr target =>
      simp only [meaning]
      rw [operand_grown tail h]
      exact setResult_grown tail _ h
  | mvi target => exact setOperand_grown tail _ h
  | mov target source =>
      simp only [meaning]
      rw [operand_grown tail fun address among => h address (List.mem_append_left _ among)]
      exact setOperand_grown tail _ fun address among => h address (List.mem_append_right _ among)
  | alu op source =>
      simp only [meaning]
      rw [operand_grown tail h]
      rfl
  | jcc condition => exact ite_grown tail fun _ => rfl
  | call | rst n => exact enter_grown tail _ h
  | ccc condition =>
      refine ite_grown tail fun taken => enter_grown tail _ ?_
      have holds : Manual.met p.core.flags condition = true := taken
      rwa [touched, if_pos holds] at h
  | ret => exact leave_grown tail h
  | rcc condition =>
      refine ite_grown tail fun taken => leave_grown tail ?_
      have holds : Manual.met p.core.flags condition = true := taken
      rwa [touched, if_pos holds] at h
  | push source => cases source <;> exact pushBytes_grown tail _ _ h
  | pop target =>
      obtain ⟨low, high⟩ := peekWord_grown tail h
      simp only [meaning, grown_core, low, high]
      exact setStackBytes_grown (p := p.setSP (p.core.registers.sp + 2)) tail _ _ target
  | xthl =>
      obtain ⟨low, high⟩ := peekWord_grown tail h
      simp only [meaning, grown_core, low, high]
      rw [pokeWord_grown tail _ _ (h _ (by simp [touched])) (h _ (by simp [touched]))]
      exact setStackBytes_grown tail _ _ .hl
  | input =>
      obtain ⟨core, memory, ⟨device, input, output⟩⟩ := p
      cases input <;> rfl
  | output =>
      obtain ⟨core, memory, ⟨device, input, output⟩⟩ := p
      cases output <;> rfl
  | _ => rfl

end Operation

namespace Processor

variable {σ : Type} {p q : Processor σ} (tail : ByteArray)

/-! ## Steps -/

/-- The step does not fail for want of memory. -/
def StaysInside (p : Processor σ) : Prop :=
  ∀ access, p.step.1 ≠ .error (.outOfBounds access)

theorem inside_of_accessFault? {addresses : List UInt16}
    (h : ∀ access, p.accessFault? addresses ≠ some (.outOfBounds access)) :
    p.Inside addresses := by
  rw [← accessFault?_eq_none_iff, accessFault?]
  cases outside : p.memory.firstOutside? addresses with
  | none => rfl
  | some access =>
      refine absurd ?_ (h access)
      rw [accessFault?, outside]
      rfl

theorem accessFault?_grown {addresses : List UInt16} (h : p.Inside addresses) :
    (p.grown tail).accessFault? addresses = p.accessFault? addresses := by
  rw [accessFault?_eq_none_iff.mpr h, accessFault?_eq_none_iff.mpr (inside_grown tail h)]

theorem opcode_grown (h : p.Inside p.instructionAddresses) :
    (p.grown tail).peek p.core.registers.pc = p.peek p.core.registers.pc ∧
      (p.grown tail).instructionLength = p.instructionLength := by
  have opcode : (p.grown tail).peek p.core.registers.pc = p.peek p.core.registers.pc :=
    peek_grown tail (h _ (by simp [instructionAddresses_eq]))
  exact ⟨opcode, congrArg (fun opcode => (Opcode.entry opcode).length) opcode⟩

theorem fetched_grown (h : p.Inside p.instructionAddresses) :
    (p.grown tail).fetched = p.fetched.grown tail := by
  obtain ⟨opcode, length⟩ := opcode_grown tail h
  rw [instructionAddresses_eq] at h
  have low (long : 1 < p.instructionLength) :
      (p.grown tail).peek (p.core.registers.pc + 1) = p.peek (p.core.registers.pc + 1) :=
    peek_grown tail (h _ (by simp [long]))
  have high (long : 2 < p.instructionLength) :
      (p.grown tail).peek (p.core.registers.pc + 2) = p.peek (p.core.registers.pc + 2) :=
    peek_grown tail (h _ (by simp [long]))
  have core : (p.grown tail).fetchedCore = p.fetchedCore := by
    simp only [fetchedCore, grown_core, opcode, length]
    rw [ite_congr rfl low fun _ => rfl, ite_congr rfl high fun _ => rfl]
  exact congrArg (fun core => { p.grown tail with core }) core

theorem prepared_grown (h : ∀ access, p.preparationFault? ≠ some (.outOfBounds access)) :
    p.preparationFault? = none ∧ (p.grown tail).preparationFault? = none ∧
      (p.grown tail).prepared = p.prepared.grown tail := by
  unfold preparationFault? prepared at *
  rw [grown_core]
  cases waiting : p.core.acceptable with
  | some vector => exact ⟨rfl, rfl, rfl⟩
  | none =>
      rw [waiting] at h
      have inside := inside_of_accessFault? h
      have alike : (p.grown tail).instructionAddresses = p.instructionAddresses := by
        simp only [instructionAddresses, grown_core, (opcode_grown tail inside).2]
      refine ⟨accessFault?_eq_none_iff.mpr inside, ?_, fetched_grown tail inside⟩
      rw [alike]
      exact accessFault?_eq_none_iff.mpr (inside_grown tail inside)

theorem fault?_grown (operation : Operation)
    (h : ∀ access, operation.fault? p ≠ some (.outOfBounds access)) :
    operation.fault? (p.grown tail) = operation.fault? p := by
  have missing : operation.missingHandler? (p.grown tail) = operation.missingHandler? p := by
    cases operation <;> rfl
  rw [Operation.fault?, Operation.fault?, missing, grown_core]
  cases handler : operation.missingHandler? p with
  | some fault => rfl
  | none =>
      rw [Operation.fault?, handler] at h
      exact congrArg _ (accessFault?_grown tail (inside_of_accessFault? h))

theorem inside_of_fault?_eq_none {operation : Operation} (h : operation.fault? p = none) :
    p.Inside (operation.touched p.core) :=
  accessFault?_eq_none_iff.mp (Option.or_eq_none_iff.mp h).2

theorem opcodeFault?_grown (h : ∀ access, p.opcodeFault? ≠ some (.outOfBounds access)) :
    (p.grown tail).opcodeFault? = p.opcodeFault? := by
  have line : (p.grown tail).operation? = p.operation? := rfl
  by_cases refused : Opcode.Refused p.core.opcode
  · rw [opcodeFault?, opcodeFault?, grown_core, if_pos refused, if_pos refused]
  · obtain ⟨operation, named⟩ := exists_operation refused
    rw [opcodeFault?, if_neg refused, named] at h
    rw [opcodeFault?, opcodeFault?, grown_core, if_neg refused, if_neg refused, line, named]
    exact fault?_grown tail operation h

theorem opcodeMeaning_grown (h : p.opcodeFault? = none) :
    (p.grown tail).opcodeMeaning = (p.opcodeMeaning.1, p.opcodeMeaning.2.grown tail) := by
  have accepted := not_refused_of_opcodeFault?_eq_none h
  obtain ⟨operation, named⟩ := exists_operation accepted
  have alike : (p.grown tail).operation? = some operation := named
  rw [opcodeFault?, if_neg accepted, named] at h
  rw [opcodeMeaning, opcodeMeaning, named, alike]
  exact congrArg _ (operation.meaning_grown tail (inside_of_fault?_eq_none h))

/-- A step that stays inside memory is the same step on a larger memory. -/
theorem step_grown (h : p.StaysInside) :
    (p.grown tail).step = (p.step.1, p.step.2.grown tail) := by
  have inside (access : OutOfBounds) : p.stepFault? ≠ some (.outOfBounds access) :=
    fun failing => h access (step_error_iff.mpr failing)
  obtain ⟨ready, readyGrown, prepares⟩ := prepared_grown tail (p := p) fun access failing =>
    inside access (by rw [stepFault?, failing]; rfl)
  unfold stepFault? at inside
  rw [ready, Option.none_or] at inside
  have executes := opcodeFault?_grown tail inside
  rw [step_eq, step_eq, stepFault?, stepFault?, ready, readyGrown, prepares, executes]
  cases faulty : p.prepared.opcodeFault? with
  | some fault => rfl
  | none =>
      simp only [Option.none_or, opcodeMeaning_grown tail faulty]

end Processor

end Intel8080
