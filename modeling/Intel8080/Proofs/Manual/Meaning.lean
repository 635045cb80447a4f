import Intel8080.Processor.Execute
import Intel8080.Proofs.Manual.Arithmetic
import Intel8080.Proofs.Manual.Mnemonic
import Intel8080.Proofs.Manual.Operands
import Intel8080.Proofs.Memory.Access

/-!
# The meaning of operations

The programmer's manual as a total function on processors. It says what each operation
does and how long it takes, and leaves open what happens outside memory or without a
device: reads there yield zero and writes are lost. A reference step reads the line of
the data sheet for the opcode at PC, collects the operand bytes and applies the meaning.
-/

namespace Intel8080

namespace Processor

variable {σ : Type}

def peek (p : Processor σ) (address : UInt16) : UInt8 :=
  p.memory.byteAt address

def poke (p : Processor σ) (address : UInt16) (value : UInt8) : Processor σ :=
  { p with memory := Manual.withByte p.memory address value }

def mapRegisters (p : Processor σ) (f : Registers → Registers) : Processor σ :=
  { p with core := { p.core with registers := f p.core.registers } }

def mapFlags (p : Processor σ) (f : Flags → Flags) : Processor σ :=
  { p with core := { p.core with flags := f p.core.flags } }

def setA (p : Processor σ) (value : UInt8) : Processor σ :=
  p.mapRegisters fun r => { r with a := value }

def goTo (p : Processor σ) (target : UInt16) : Processor σ :=
  p.mapRegisters fun r => { r with pc := target }

def setInterrupts (p : Processor σ) (enabled : Bool) : Processor σ :=
  { p with core := { p.core with interruptsEnabled := enabled } }

def operand (p : Processor σ) : Operand → UInt8
  | .register name => Manual.register p.core.registers name
  | .memory => p.peek (Manual.pair p.core.registers .hl)

def setOperand (p : Processor σ) (value : UInt8) : Operand → Processor σ
  | .register name => p.mapRegisters fun r => Manual.withRegister r value name
  | .memory => p.poke (Manual.pair p.core.registers .hl) value

def setResult (p : Processor σ) (result : AluResult) (target : Operand) : Processor σ :=
  (p.setOperand result.value target).mapFlags fun _ => result.flags

def adjust (p : Processor σ) (f : Flags → UInt8 → AluResult) : Processor σ :=
  p.setResult (f p.core.flags p.core.registers.a) (.register .a)

/-! ## The stack -/

/-- The high and the low byte of the word that PUSH moves. -/
def stackBytes (p : Processor σ) : StackPair → UInt8 × UInt8
  | .bc => (p.core.registers.b, p.core.registers.c)
  | .de => (p.core.registers.d, p.core.registers.e)
  | .hl => (p.core.registers.h, p.core.registers.l)
  | .psw => (p.core.registers.a, Manual.status p.core.flags)

def setStackBytes (p : Processor σ) (high low : UInt8) : StackPair → Processor σ
  | .bc => p.mapRegisters fun r => { r with b := high, c := low }
  | .de => p.mapRegisters fun r => { r with d := high, e := low }
  | .hl => p.mapRegisters fun r => { r with h := high, l := low }
  | .psw => (p.setA high).mapFlags fun _ => Manual.flagsOf low

def setSP (p : Processor σ) (sp : UInt16) : Processor σ :=
  p.mapRegisters fun r => { r with sp }

/-- The high byte goes to SP - 1, then the low byte to SP - 2. -/
def pushBytes (p : Processor σ) (high low : UInt8) : Processor σ :=
  let sp := p.core.registers.sp
  ((p.poke (sp - 1) high).poke (sp - 2) low).setSP (sp - 2)

def enter (p : Processor σ) (target : UInt16) : Processor σ :=
  let pc := p.core.registers.pc
  (p.pushBytes (Manual.upper pc) (Manual.lower pc)).goTo target

def leave (p : Processor σ) : Processor σ :=
  let sp := p.core.registers.sp
  (p.goTo (Manual.word (p.peek (sp + 1)) (p.peek sp))).setSP (sp + 2)

end Processor

/-! ## Operations -/

namespace Operation

open Manual Processor

variable {σ : Type}

/-- What an operation does, its operand bytes in Z and W and PC past it. -/
def meaning (operation : Operation) (p : Processor σ) : Processor σ :=
  let r := p.core.registers
  match operation with
  | .nop => p
  | .lxi name => p.mapRegisters fun r => withPair r (operandWord r) name
  | .stax name => p.poke (pair r (pointerPair name)) r.a
  | .ldax name => p.setA (p.peek (pair r (pointerPair name)))
  | .shld => (p.poke (operandWord r) r.l).poke (operandWord r + 1) r.h
  | .lhld => p.setStackBytes (p.peek (operandWord r + 1)) (p.peek (operandWord r)) .hl
  | .sta => p.poke (operandWord r) r.a
  | .lda => p.setA (p.peek (operandWord r))
  | .inx name => p.mapRegisters fun r => withPair r (pair r name + 1) name
  | .dcx name => p.mapRegisters fun r => withPair r (pair r name - 1) name
  | .dad name =>
      let sum := wordSum (pair r .hl) (pair r name)
      (p.mapRegisters fun r => withPair r sum.1 .hl).mapFlags fun f => { f with carry := sum.2 }
  | .inr target => p.setResult (increase p.core.flags (p.operand target)) target
  | .dcr target => p.setResult (decrease p.core.flags (p.operand target)) target
  | .mvi target => p.setOperand r.z target
  | .rlc => p.adjust turnLeft
  | .rrc => p.adjust turnRight
  | .ral => p.adjust turnLeftThroughCarry
  | .rar => p.adjust turnRightThroughCarry
  | .daa => p.adjust decimal
  | .cma => p.setA (~~~r.a)
  | .stc => p.mapFlags fun f => { f with carry := true }
  | .cmc => p.mapFlags fun f => { f with carry := !f.carry }
  | .mov target source => p.setOperand (p.operand source) target
  | .alu op source => p.adjust fun flags a => accumulate op flags a (p.operand source)
  | .aluImmediate op => p.adjust fun flags a => accumulate op flags a r.z
  | .jmp => p.goTo (operandWord r)
  | .jcc condition => if met p.core.flags condition then p.goTo (operandWord r) else p
  | .call => p.enter (operandWord r)
  | .ccc condition => if met p.core.flags condition then p.enter (operandWord r) else p
  | .ret => p.leave
  | .rcc condition => if met p.core.flags condition then p.leave else p
  | .pchl => p.goTo (pair r .hl)
  | .rst n => p.enter (UInt16.ofNat (8 * n))
  | .push source => p.pushBytes (p.stackBytes source).1 (p.stackBytes source).2
  | .pop target => (p.setSP (r.sp + 2)).setStackBytes (p.peek (r.sp + 1)) (p.peek r.sp) target
  | .xthl =>
      ((p.poke r.sp r.l).poke (r.sp + 1) r.h).setStackBytes (p.peek (r.sp + 1)) (p.peek r.sp) .hl
  | .xchg => p.mapRegisters fun r => { r with d := r.h, e := r.l, h := r.d, l := r.e }
  | .sphl => p.setSP (pair r .hl)
  | .input =>
      match p.ports.input with
      | some handler =>
          let answer := handler r.z p.ports.device
          { p.setA answer.1 with ports := { p.ports with device := answer.2 } }
      | none => p
  | .output =>
      match p.ports.output with
      | some handler =>
          { p with ports := { p.ports with device := handler r.z r.a p.ports.device } }
      | none => p
  | .di => p.setInterrupts false
  | .ei => p.setInterrupts true

def touchesM : Operation → Bool
  | .inr target => target == .memory
  | .dcr target => target == .memory
  | .mvi target => target == .memory
  | .mov target source => target == .memory || source == .memory
  | .alu _ source => source == .memory
  | _ => false

def duration (flags : Flags) (operation : Operation) : Nat :=
  match operation with
  | .mov .. => if operation.touchesM then 7 else 5
  | .mvi _ => if operation.touchesM then 10 else 7
  | .inr _ | .dcr _ => if operation.touchesM then 10 else 5
  | .alu .. => if operation.touchesM then 7 else 4
  | .aluImmediate _ | .stax _ | .ldax _ => 7
  | .lxi _ | .dad _ | .jmp | .jcc _ | .ret | .pop _ | .input | .output => 10
  | .shld | .lhld => 16
  | .sta | .lda => 13
  | .inx _ | .dcx _ | .pchl | .sphl => 5
  | .call => 17
  | .ccc condition => if met flags condition then 17 else 11
  | .rcc condition => if met flags condition then 11 else 5
  | .rst _ | .push _ => 11
  | .xthl => 18
  | .nop | .rlc | .rrc | .ral | .rar | .daa | .cma | .stc | .cmc | .xchg | .di | .ei => 4

theorem cycles_add_takenPenalty (operation : Operation) (flags : Flags) :
    operation.cycles + operation.takenPenalty flags = operation.duration flags := by
  cases operation with
  | inr target => cases target <;> rfl
  | dcr target => cases target <;> rfl
  | mvi target => cases target <;> rfl
  | mov target source => cases target <;> cases source <;> rfl
  | alu op source => cases source <;> rfl
  | ccc condition => simp only [cycles, takenPenalty, duration, met_eq_holds]; split <;> rfl
  | rcc condition => simp only [cycles, takenPenalty, duration, met_eq_holds]; split <;> rfl
  | _ => rfl

end Operation

/-! ## The reference step -/

namespace Processor

variable {σ : Type}

def instructionLength (p : Processor σ) : Nat :=
  (Opcode.entry (p.peek p.core.registers.pc)).length

/-- The core with the instruction at PC in it: the opcode, its operand bytes in Z and
then in W, and PC past them. -/
def fetchedCore (p : Processor σ) : Core :=
  let pc := p.core.registers.pc
  { p.core with
    registers := { p.core.registers with
      z := if 1 < p.instructionLength then p.peek (pc + 1) else p.core.registers.z
      w := if 2 < p.instructionLength then p.peek (pc + 2) else p.core.registers.w
      pc := pc + UInt16.ofNat p.instructionLength }
    opcode := p.peek pc
    opcodeAddress := pc }

def fetched (p : Processor σ) : Processor σ :=
  { p with core := p.fetchedCore }

/-- One instruction as the manual has it: its cycles and the processor after it. -/
def referenceStep? (p : Processor σ) : Option (Nat × Processor σ) :=
  (Opcode.entry (p.peek p.core.registers.pc)).operation?.map fun operation =>
    (operation.duration p.core.flags, operation.meaning p.fetched)

end Processor

end Intel8080
