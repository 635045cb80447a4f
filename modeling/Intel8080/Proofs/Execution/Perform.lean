import Intel8080.Processor.Step
import Intel8080.Proofs.Execution.Outcome

/-!
# Every operation has an outcome

An operation fails for want of a device, or at the first address it touches that lies
outside memory; otherwise it does what the manual says, in the time that the manual
says. Each statement is an equation, so that a step is understood without another look
at how operations are carried out.
-/

namespace Intel8080

namespace Operation

open Exec Manual Processor

variable {σ : Type}

def touched (core : Core) : Operation → List UInt16
  | .mov target source => source.addresses core.registers ++ target.addresses core.registers
  | .alu _ source => source.addresses core.registers
  | .inr target | .dcr target | .mvi target => target.addresses core.registers
  | .stax name | .ldax name => [pair core.registers (pointerPair name)]
  | .sta | .lda => [operandWord core.registers]
  | .shld | .lhld => [operandWord core.registers, operandWord core.registers + 1]
  | .push _ | .call | .rst _ => [core.registers.sp - 2, core.registers.sp - 1]
  | .ccc condition =>
      if met core.flags condition then [core.registers.sp - 2, core.registers.sp - 1] else []
  | .pop _ | .ret | .xthl => [core.registers.sp, core.registers.sp + 1]
  | .rcc condition =>
      if met core.flags condition then [core.registers.sp, core.registers.sp + 1] else []
  | _ => []

def missingHandler? (p : Processor σ) : Operation → Option Fault
  | .input =>
      if p.ports.input.isNone then some (.missingPortHandler .read p.core.registers.z) else none
  | .output =>
      if p.ports.output.isNone then some (.missingPortHandler .write p.core.registers.z) else none
  | _ => none

def fault? (operation : Operation) (p : Processor σ) : Option Fault :=
  (operation.missingHandler? p).or (p.accessFault? (operation.touched p.core))

private theorem perform_mov (target source : Operand) (p : Processor σ) :
    perform (.mov target source) p =
      p.outcome (fault? (.mov target source) p) () (meaning (.mov target source) p) := by
  have moved := outcome_bind (f := fun value => writeOperand value target)
    (readOperand_eq source p) (writeOperand_eq _ target p)
  rw [← accessFault?_append] at moved
  exact moved

private theorem perform_ports (operation : Operation) (p : Processor σ)
    (h : operation = .input ∨ operation = .output) :
    perform operation p = p.outcome (operation.fault? p) () (operation.meaning p) := by
  obtain ⟨core, memory, ⟨device, input, output⟩⟩ := p
  rcases h with rfl | rfl
  · cases input <;> rfl
  · cases output <;> rfl

private theorem accessFault?_if (p : Processor σ) (taken : Bool) (addresses : List UInt16) :
    p.accessFault? (if taken then addresses else []) =
      if taken then p.accessFault? addresses else none := by
  cases taken <;> rfl

/-- An operation stops at its first fault, with the processor as it was, or else does
what the manual says. -/
theorem perform_eq (operation : Operation) (p : Processor σ) :
    operation.perform p = p.outcome (operation.fault? p) () (operation.meaning p) := by
  cases operation with
  | nop => rfl
  | lxi name =>
      simp only [meaning, withPair_eq_setPair, operandWord_eq_wz]
      rfl
  | stax name =>
      simp only [fault?, touched, meaning, pair_pointerPair]
      exact (bind_of_ok rfl).trans (writeByte_eq _ _ p)
  | ldax name =>
      simp only [fault?, touched, meaning, pair_pointerPair]
      exact (bind_of_ok rfl).trans (outcome_bind_ok (readByte_eq _ p) rfl)
  | shld =>
      simp only [fault?, touched, meaning, operandWord_eq_wz]
      refine (bind_of_ok rfl).trans ((writeWord_eq _ _ p).trans ?_)
      rw [Registers.hl, lowByte_joinBytes, highByte_joinBytes]
      rfl
  | lhld =>
      simp only [fault?, touched, meaning, operandWord_eq_wz]
      refine (bind_of_ok rfl).trans (outcome_bind_ok (readWord_eq _ p) ?_)
      simp [setStackBytes, mapRegisters, Registers.setHL, modifyRegisters]
  | sta =>
      simp only [fault?, touched, meaning, operandWord_eq_wz]
      exact (bind_of_ok rfl).trans (writeByte_eq _ _ p)
  | lda =>
      simp only [fault?, touched, meaning, operandWord_eq_wz]
      exact (bind_of_ok rfl).trans (outcome_bind_ok (readByte_eq _ p) rfl)
  | inx name | dcx name =>
      simp only [meaning, withPair_eq_setPair, pair_eq_getPair]
      rfl
  | dad name =>
      simp only [meaning, withPair_eq_setPair, pair_eq_getPair, ← addWords_eq_wordSum]
      rfl
  | inr target =>
      rw [perform, funext fun f => funext fun v => increment_eq_increase f v]
      exact adjustOperand_eq target _ p
  | dcr target =>
      rw [perform, funext fun f => funext fun v => decrement_eq_decrease f v]
      exact adjustOperand_eq target _ p
  | mvi target => exact (bind_of_ok rfl).trans (writeOperand_eq _ target p)
  | rlc =>
      rw [perform, funext fun f => funext fun a => rotateLeft_eq f a]
      rfl
  | rrc =>
      rw [perform, funext fun f => funext fun a => rotateRight_eq f a]
      rfl
  | ral =>
      rw [perform, funext fun f => funext fun a => rotateLeftThroughCarry_eq f a]
      rfl
  | rar =>
      rw [perform, funext fun f => funext fun a => rotateRightThroughCarry_eq f a]
      rfl
  | daa =>
      rw [perform, funext fun f => funext fun a => decimalAdjust_eq_decimal f a]
      rfl
  | cma => rfl
  | stc => rfl
  | cmc => rfl
  | mov target source => exact perform_mov target source p
  | alu op source =>
      simp only [perform, apply_eq_accumulate]
      exact outcome_bind_ok (readOperand_eq source p) rfl
  | aluImmediate op =>
      simp only [perform, apply_eq_accumulate]
      rfl
  | jmp =>
      simp only [meaning, operandWord_eq_wz]
      rfl
  | jcc condition =>
      have jump : jumpToOperand p = p.outcome none () (p.goTo p.core.registers.wz) := rfl
      refine (onlyIf_eq jump).trans ?_
      simp only [ite_self, meaning, met_eq_holds, operandWord_eq_wz]
      rfl
  | call =>
      simp only [meaning, operandWord_eq_wz]
      exact (bind_of_ok rfl).trans (call_eq _ p)
  | ccc condition =>
      rw [fault?, touched, accessFault?_if]
      simp only [meaning, met_eq_holds, operandWord_eq_wz]
      exact onlyIf_eq ((bind_of_ok rfl).trans (call_eq _ p))
  | ret => exact ret_eq p
  | rcc condition =>
      rw [fault?, touched, accessFault?_if]
      simp only [meaning, met_eq_holds]
      exact onlyIf_eq (ret_eq p)
  | pchl =>
      simp only [meaning, pair_eq_getPair]
      rfl
  | rst n => exact call_eq _ p
  | push source =>
      refine (bind_of_ok (readStackPair_eq source p)).trans ((push_eq _ p).trans ?_)
      rw [highByte_joinBytes, lowByte_joinBytes]
      rfl
  | pop target =>
      refine outcome_bind_ok (pop_eq p) ((writeStackPair_eq _ target _).trans ?_)
      rw [highByte_joinBytes, lowByte_joinBytes]
      rfl
  | xthl => exact exchangeStackTop_eq p
  | xchg => simp [perform, modifyRegisters, Registers.setDE, Registers.setHL, Registers.hl,
      Registers.de, meaning, mapRegisters, fault?, missingHandler?, touched, outcome, accessFault?]
  | sphl =>
      simp only [meaning, pair_eq_getPair]
      rfl
  | input => exact perform_ports _ p (.inl rfl)
  | output => exact perform_ports _ p (.inr rfl)
  | di => rfl
  | ei => rfl

theorem execute_eq (operation : Operation) (p : Processor σ) :
    operation.execute p =
      p.outcome (operation.fault? p) (operation.duration p.core.flags) (operation.meaning p) := by
  rw [← cycles_add_takenPenalty]
  exact (bind_of_ok rfl).trans (outcome_bind_ok (perform_eq operation p) rfl)

end Operation

end Intel8080
