import Intel8080.Proofs.Manual.Meaning

/-!
# What operations leave alone

For each operation, the registers, flags and addresses that it names as its results.
Everything else comes out of it as it went in; in particular no operation changes the
operand latches, the opcode in the core or a waiting interrupt.
-/

namespace Intel8080

def Operand.registers : Operand → List Register
  | .register r => [r]
  | .memory => []

def Pair.registers : Pair → List Register
  | .bc => [.b, .c]
  | .de => [.d, .e]
  | .hl => [.h, .l]
  | .sp => []

def StackPair.registers : StackPair → List Register
  | .bc => [.b, .c]
  | .de => [.d, .e]
  | .hl => [.h, .l]
  | .psw => [.a]

namespace Operation

/-! ## Footprints -/

def writtenRegisters : Operation → List Register
  | .lxi pair | .inx pair | .dcx pair => pair.registers
  | .dad _ | .lhld | .xthl => [.h, .l]
  | .ldax _ | .lda | .rlc | .rrc | .ral | .rar | .daa | .cma | .input => [.a]
  | .alu op _ | .aluImmediate op => if op = .cmp then [] else [.a]
  | .inr target | .dcr target | .mvi target | .mov target _ => target.registers
  | .pop target => target.registers
  | .xchg => [.d, .e, .h, .l]
  | _ => []

def movesSP : Operation → Bool
  | .lxi pair | .inx pair | .dcx pair => pair == .sp
  | .push _ | .pop _ | .call | .ccc _ | .ret | .rcc _ | .rst _ | .sphl => true
  | _ => false

def branches : Operation → Bool
  | .jmp | .jcc _ | .call | .ccc _ | .ret | .rcc _ | .pchl | .rst _ => true
  | _ => false

def writtenFlags : Operation → List FlagName
  | .alu .. | .aluImmediate _ | .daa | .pop .psw => [.sign, .zero, .auxCarry, .parity, .carry]
  | .inr _ | .dcr _ => [.sign, .zero, .auxCarry, .parity]
  | .dad _ | .rlc | .rrc | .ral | .rar | .stc | .cmc => [.carry]
  | _ => []

def storedAddresses (r : Registers) : Operation → List UInt16
  | .stax name => [Manual.pair r (Manual.pointerPair name)]
  | .sta => [Manual.operandWord r]
  | .shld => [Manual.operandWord r, Manual.operandWord r + 1]
  | .inr .memory | .dcr .memory | .mvi .memory | .mov .memory _ => [Manual.pair r .hl]
  | .push _ | .call | .ccc _ | .rst _ => [r.sp - 1, r.sp - 2]
  | .xthl => [r.sp, r.sp + 1]
  | _ => []

theorem length_storedAddresses (r : Registers) (operation : Operation) :
    (operation.storedAddresses r).length ≤ 2 := by
  unfold storedAddresses
  split <;> simp

/-- `after` differs from `before` at most in what an operation names. -/
structure Frame {σ : Type} (operation : Operation) (before after : Processor σ) : Prop where
  registers : ∀ r ∉ operation.writtenRegisters,
    Manual.register after.core.registers r = Manual.register before.core.registers r
  latches : after.core.registers.w = before.core.registers.w ∧
    after.core.registers.z = before.core.registers.z
  sp : operation.movesSP = false → after.core.registers.sp = before.core.registers.sp
  pc : operation.branches = false → after.core.registers.pc = before.core.registers.pc
  flags : ∀ f ∉ operation.writtenFlags, after.core.flags.get f = before.core.flags.get f
  interrupts : operation ≠ .ei → operation ≠ .di →
    after.core.interruptsEnabled = before.core.interruptsEnabled
  opcode : after.core.opcode = before.core.opcode ∧
    after.core.opcodeAddress = before.core.opcodeAddress
  pending : after.core.pendingInterrupt = before.core.pendingInterrupt
  capacity : after.memory.capacity = before.memory.capacity
  memory : ∀ address, (∀ stored ∈ operation.storedAddresses before.core.registers,
    stored.toNat ≠ address) → after.memory.byte? address = before.memory.byte? address
  ports : operation ≠ .input → operation ≠ .output → after.ports = before.ports
  handlers : after.ports.input = before.ports.input ∧ after.ports.output = before.ports.output

end Operation

namespace Processor

variable {σ : Type} (p : Processor σ)

/-! ## Single changes -/

theorem register_setSP (sp : UInt16) (r : Register) :
    Manual.register (p.setSP sp).core.registers r = Manual.register p.core.registers r := by
  cases r <;> rfl

theorem register_setA_of_ne (value : UInt8) {r : Register} (h : r ≠ .a) :
    Manual.register (p.setA value).core.registers r = Manual.register p.core.registers r := by
  cases r with
  | a => exact absurd rfl h
  | _ => rfl

theorem register_setOperand_of_notMem (value : UInt8) {target : Operand} {r : Register}
    (h : r ∉ target.registers) :
    Manual.register (p.setOperand value target).core.registers r =
      Manual.register p.core.registers r := by
  cases target with
  | register t =>
      exact Manual.register_withRegister_of_ne _ _ (by simpa [Operand.registers] using h)
  | memory => rfl

theorem register_setStackBytes_of_notMem (high low : UInt8) {target : StackPair} {r : Register}
    (h : r ∉ target.registers) :
    Manual.register (p.setStackBytes high low target).core.registers r =
      Manual.register p.core.registers r := by
  cases target <;> cases r <;> first | rfl | simp [StackPair.registers] at h

end Processor

theorem Manual.register_withPair_of_notMem (r : Registers) (word : UInt16) {pair : Pair}
    {other : Register} (h : other ∉ pair.registers) :
    Manual.register (Manual.withPair r word pair) other = Manual.register r other := by
  cases pair <;> cases other <;> first | rfl | simp [Pair.registers] at h

namespace Operation

open Processor

variable {σ : Type}

private theorem registers_accumulate (op : AluOp) (value : UInt8) (p : Processor σ) {r : Register}
    (h : r ∉ if op = .cmp then [] else [Register.a]) :
    Manual.register (p.adjust fun flags a => Manual.accumulate op flags a value).core.registers r =
      Manual.register p.core.registers r := by
  by_cases compares : op = .cmp
  · subst compares
    cases r <;> rfl
  · rw [if_neg compares] at h
    exact register_setOperand_of_notMem p _ (show r ∉ (Operand.register .a).registers from h)

private theorem registers_frame (operation : Operation) (p : Processor σ) {r : Register}
    (h : r ∉ operation.writtenRegisters) :
    Manual.register (operation.meaning p).core.registers r =
      Manual.register p.core.registers r := by
  cases operation with
  | lxi pair | inx pair | dcx pair => exact Manual.register_withPair_of_notMem _ _ h
  | dad pair => exact Manual.register_withPair_of_notMem _ _ (show r ∉ Pair.hl.registers from h)
  | lhld | xthl => exact register_setStackBytes_of_notMem _ _ _ h
  | ldax | lda | cma => exact register_setA_of_ne _ _ (by simpa [writtenRegisters] using h)
  | mvi target | mov target source | inr target | dcr target =>
      exact register_setOperand_of_notMem _ _ h
  | rlc | rrc | ral | rar | daa =>
      exact register_setOperand_of_notMem p _ (show r ∉ (Operand.register .a).registers from h)
  | alu op source => exact registers_accumulate op _ p h
  | aluImmediate op => exact registers_accumulate op _ p h
  | jcc condition | ccc condition | rcc condition =>
      simp only [meaning]
      split <;> cases r <;> rfl
  | pop target => exact (register_setStackBytes_of_notMem _ _ _ h).trans (register_setSP ..)
  | xchg => cases r <;> first | rfl | simp [writtenRegisters] at h
  | input =>
      simp only [meaning]
      split
      · exact register_setA_of_ne p _ (by simpa [writtenRegisters] using h)
      · rfl
  | output =>
      simp only [meaning]
      split <;> rfl
  | _ => cases r <;> rfl

private def constants (core : Core) : UInt8 × UInt8 × UInt8 × UInt16 × Option UInt8 :=
  (core.registers.w, core.registers.z, core.opcode, core.opcodeAddress, core.pendingInterrupt)

private theorem setOperand_keeps (p : Processor σ) (value : UInt8) (target : Operand) :
    constants (p.setOperand value target).core = constants p.core ∧
      (p.setOperand value target).core.registers.sp = p.core.registers.sp ∧
      (p.setOperand value target).core.registers.pc = p.core.registers.pc ∧
      (p.setOperand value target).core.flags = p.core.flags ∧
      (p.setOperand value target).core.interruptsEnabled = p.core.interruptsEnabled := by
  cases target with
  | register r => cases r <;> exact ⟨rfl, rfl, rfl, rfl, rfl⟩
  | memory => exact ⟨rfl, rfl, rfl, rfl, rfl⟩

private theorem constants_meaning (operation : Operation) (p : Processor σ) :
    constants (operation.meaning p).core = constants p.core := by
  cases operation with
  | lxi pair | inx pair | dcx pair => cases pair <;> rfl
  | mvi target | mov target source | inr target | dcr target =>
      exact (setOperand_keeps p _ target).1
  | jcc condition | ccc condition | rcc condition | input | output =>
      simp only [meaning]
      split <;> rfl
  | pop target => cases target <;> rfl
  | _ => rfl

private theorem sp_frame (operation : Operation) (p : Processor σ)
    (h : operation.movesSP = false) :
    (operation.meaning p).core.registers.sp = p.core.registers.sp := by
  cases operation with
  | lxi pair | inx pair | dcx pair => cases pair <;> first | rfl | cases h
  | mvi target | mov target source | inr target | dcr target =>
      exact (setOperand_keeps p _ target).2.1
  | push source | pop target | call | ccc condition | ret | rcc condition | rst n | sphl => cases h
  | jcc condition | input | output =>
      simp only [meaning]
      split <;> rfl
  | _ => rfl

private theorem pc_frame (operation : Operation) (p : Processor σ)
    (h : operation.branches = false) :
    (operation.meaning p).core.registers.pc = p.core.registers.pc := by
  cases operation with
  | lxi pair | inx pair | dcx pair => cases pair <;> rfl
  | mvi target | mov target source | inr target | dcr target =>
      exact (setOperand_keeps p _ target).2.2.1
  | pop target => cases target <;> rfl
  | jmp | jcc condition | call | ccc condition | ret | rcc condition | pchl | rst n => cases h
  | input | output =>
      simp only [meaning]
      split <;> rfl
  | _ => rfl

private theorem flags_frame (operation : Operation) (p : Processor σ) {f : FlagName}
    (h : f ∉ operation.writtenFlags) :
    (operation.meaning p).core.flags.get f = p.core.flags.get f := by
  cases operation with
  | mvi target | mov target source => rw [meaning, (setOperand_keeps p _ target).2.2.2.1]
  | inr target | dcr target | alu op source | aluImmediate op | daa =>
      cases f <;> first | rfl | simp [writtenFlags] at h
  | dad pair | rlc | rrc | ral | rar | stc | cmc =>
      cases f <;> first | rfl | simp [writtenFlags] at h
  | pop target =>
      cases target with
      | psw => cases f <;> simp [writtenFlags] at h
      | _ => rfl
  | jcc condition | ccc condition | rcc condition | input | output =>
      simp only [meaning]
      split <;> rfl
  | _ => rfl

private theorem interrupts_frame (operation : Operation) (p : Processor σ)
    (enables : operation ≠ .ei) (disables : operation ≠ .di) :
    (operation.meaning p).core.interruptsEnabled = p.core.interruptsEnabled := by
  cases operation with
  | ei => exact absurd rfl enables
  | di => exact absurd rfl disables
  | mvi target | mov target source | inr target | dcr target =>
      exact (setOperand_keeps p _ target).2.2.2.2
  | pop target => cases target <;> rfl
  | jcc condition | ccc condition | rcc condition | input | output =>
      simp only [meaning]
      split <;> rfl
  | _ => rfl

/-! ## Memory and devices -/

theorem byte?_poke_of_ne (p : Processor σ) {address : UInt16} (value : UInt8) {other : Nat}
    (h : address.toNat ≠ other) :
    (p.poke address value).memory.byte? other = p.memory.byte? other :=
  Memory.byte?_store_of_ne _ value h

theorem byte?_pushBytes_of_ne (p : Processor σ) (high low : UInt8) {other : Nat}
    (h : ∀ stored ∈ [p.core.registers.sp - 1, p.core.registers.sp - 2], stored.toNat ≠ other) :
    (p.pushBytes high low).memory.byte? other = p.memory.byte? other :=
  (byte?_poke_of_ne _ low (h _ (by simp))).trans (byte?_poke_of_ne p high (h _ (by simp)))

private theorem memory_frame (operation : Operation) (p : Processor σ) {address : Nat}
    (h : ∀ stored ∈ operation.storedAddresses p.core.registers, stored.toNat ≠ address) :
    (operation.meaning p).memory.byte? address = p.memory.byte? address := by
  cases operation with
  | stax pointer | sta => exact byte?_poke_of_ne p _ (h _ (by simp [storedAddresses]))
  | shld | xthl =>
      exact (byte?_poke_of_ne _ _ (h _ (by simp [storedAddresses]))).trans
        (byte?_poke_of_ne p _ (h _ (by simp [storedAddresses])))
  | mvi target | mov target source | inr target | dcr target =>
      cases target with
      | register r => rfl
      | memory => exact byte?_poke_of_ne p _ (h _ (by simp [storedAddresses]))
  | push source | call | rst n => exact byte?_pushBytes_of_ne p _ _ h
  | ccc condition =>
      simp only [meaning]
      split
      · exact byte?_pushBytes_of_ne p _ _ h
      · rfl
  | jcc condition | rcc condition | input | output =>
      simp only [meaning]
      split <;> rfl
  | pop target => cases target <;> rfl
  | _ => rfl

theorem capacity_meaning (operation : Operation) (p : Processor σ) :
    (operation.meaning p).memory.capacity = p.memory.capacity := by
  cases operation with
  | mvi target | mov target source | inr target | dcr target =>
      cases target with
      | register r => rfl
      | memory => exact Memory.capacity_store ..
  | stax pointer | sta => exact Memory.capacity_store ..
  | shld | xthl | push source | call | rst n =>
      exact (Memory.capacity_store ..).trans (Memory.capacity_store ..)
  | ccc condition =>
      simp only [meaning]
      split
      · exact (Memory.capacity_store ..).trans (Memory.capacity_store ..)
      · rfl
  | jcc condition | rcc condition | input | output =>
      simp only [meaning]
      split <;> rfl
  | pop target => cases target <;> rfl
  | _ => rfl

private theorem ports_frame (operation : Operation) (p : Processor σ)
    (reads : operation ≠ .input) (writes : operation ≠ .output) :
    (operation.meaning p).ports = p.ports := by
  cases operation with
  | input => exact absurd rfl reads
  | output => exact absurd rfl writes
  | mvi target | mov target source | inr target | dcr target => cases target <;> rfl
  | pop target => cases target <;> rfl
  | jcc condition | ccc condition | rcc condition =>
      simp only [meaning]
      split <;> rfl
  | _ => rfl

theorem handlers_meaning (operation : Operation) (p : Processor σ) :
    (operation.meaning p).ports.input = p.ports.input ∧
      (operation.meaning p).ports.output = p.ports.output := by
  by_cases access : operation = .input ∨ operation = .output
  · rcases access with rfl | rfl <;> simp only [meaning] <;> split <;> exact ⟨rfl, rfl⟩
  · rw [not_or] at access
    rw [ports_frame operation p access.1 access.2]
    exact ⟨rfl, rfl⟩

theorem frame_meaning (operation : Operation) (p : Processor σ) :
    operation.Frame p (operation.meaning p) where
  registers _ h := registers_frame operation p h
  latches := by
    have same := constants_meaning operation p
    simp only [constants, Prod.mk.injEq] at same
    exact ⟨same.1, same.2.1⟩
  sp := sp_frame operation p
  pc := pc_frame operation p
  flags _ h := flags_frame operation p h
  interrupts := interrupts_frame operation p
  opcode := by
    have same := constants_meaning operation p
    simp only [constants, Prod.mk.injEq] at same
    exact ⟨same.2.2.1, same.2.2.2.1⟩
  pending := by
    have same := constants_meaning operation p
    simp only [constants, Prod.mk.injEq] at same
    exact same.2.2.2.2
  capacity := capacity_meaning operation p
  memory _ h := memory_frame operation p h
  ports := ports_frame operation p
  handlers := handlers_meaning operation p

end Operation

end Intel8080
