import Intel8080.Alu
import Intel8080.Operation.Decode
import Intel8080.Processor.Basic

/-!
# Executing an operation

What each operation does, once it has been fetched: its operand bytes are in Z
and W, and PC is past it. No operation changes memory or calls a device before
its last chance to fail, so a fault leaves both as they were.
-/

namespace Intel8080

namespace Exec

variable {σ : Type}

def adjustAccumulator (f : Flags → UInt8 → AluResult) : Exec σ Unit := do
  let result := f (← flags) (← registers).a
  modifyFlags fun _ => result.flags
  modifyRegisters fun r => { r with a := result.value }

def adjustOperand (target : Operand) (f : Flags → UInt8 → AluResult) : Exec σ Unit := do
  let value ← readOperand target
  let result := f (← flags) value
  modifyFlags fun _ => result.flags
  writeOperand result.value target

def addToHL (pair : Pair) : Exec σ Unit := do
  let r ← registers
  let (sum, carry) := Alu.addWords r.hl (r.getPair pair)
  modifyFlags fun f => { f with carry }
  modifyRegisters fun r => r.setHL sum

def exchangeStackTop : Exec σ Unit := do
  let r ← registers
  let top ← readWord r.sp
  writeWord r.sp r.hl
  modifyRegisters fun r => r.setHL top

def jumpToOperand : Exec σ Unit :=
  modifyRegisters fun r => { r with pc := r.wz }

def callOperand : Exec σ Unit := do
  call (← registers).wz

def loadAccumulator (address : UInt16) : Exec σ Unit := do
  let value ← readByte address
  modifyRegisters fun r => { r with a := value }

def onlyIf (condition : Condition) (action : Exec σ Unit) : Exec σ Unit := do
  if condition.holds (← flags) then action

end Exec

namespace Operation

variable {σ : Type}

open Exec

def perform : Operation → Exec σ Unit
  | .nop => return
  | .lxi pair => modifyRegisters fun r => r.setPair r.wz pair
  | .stax pointer => do
      let r ← registers
      writeByte (r.pointer pointer) r.a
  | .ldax pointer => do loadAccumulator ((← registers).pointer pointer)
  | .shld => do
      let r ← registers
      writeWord r.wz r.hl
  | .lhld => do
      let word ← readWord (← registers).wz
      modifyRegisters fun r => r.setHL word
  | .sta => do
      let r ← registers
      writeByte r.wz r.a
  | .lda => do loadAccumulator (← registers).wz
  | .inx pair => modifyRegisters fun r => r.setPair (r.getPair pair + 1) pair
  | .dcx pair => modifyRegisters fun r => r.setPair (r.getPair pair - 1) pair
  | .dad pair => addToHL pair
  | .inr target => adjustOperand target Alu.increment
  | .dcr target => adjustOperand target Alu.decrement
  | .mvi target => do writeOperand (← registers).z target
  | .rlc => adjustAccumulator Alu.rotateLeft
  | .rrc => adjustAccumulator Alu.rotateRight
  | .ral => adjustAccumulator Alu.rotateLeftThroughCarry
  | .rar => adjustAccumulator Alu.rotateRightThroughCarry
  | .daa => adjustAccumulator Alu.decimalAdjust
  | .cma => modifyRegisters fun r => { r with a := ~~~r.a }
  | .stc => modifyFlags fun f => { f with carry := true }
  | .cmc => modifyFlags fun f => { f with carry := !f.carry }
  | .mov target source => do writeOperand (← readOperand source) target
  | .alu op source => do
      let value ← readOperand source
      adjustAccumulator fun f a => Alu.apply op f a value
  | .aluImmediate op => do
      let value := (← registers).z
      adjustAccumulator fun f a => Alu.apply op f a value
  | .jmp => jumpToOperand
  | .jcc condition => onlyIf condition jumpToOperand
  | .call => callOperand
  | .ccc condition => onlyIf condition callOperand
  | .ret => Exec.ret
  | .rcc condition => onlyIf condition Exec.ret
  | .pchl => modifyRegisters fun r => { r with pc := r.hl }
  | .rst n => Exec.call (UInt16.ofNat (8 * n.val))
  | .push source => do Exec.push (← readStackPair source)
  | .pop target => do writeStackPair (← Exec.pop) target
  | .xthl => exchangeStackTop
  | .xchg => modifyRegisters fun r => (r.setDE r.hl).setHL r.de
  | .sphl => modifyRegisters fun r => { r with sp := r.hl }
  | .input => do
      let value ← readPort (← registers).z
      modifyRegisters fun r => { r with a := value }
  | .output => do
      let r ← registers
      writePort r.z r.a
  | .di => setInterruptsEnabled false
  | .ei => setInterruptsEnabled true

/-- Clock cycles that an operation spends on top under the given flags: six for a
conditional call or return that is taken. -/
def takenPenalty (flags : Flags) : Operation → Nat
  | .ccc condition => if condition.holds flags then 6 else 0
  | .rcc condition => if condition.holds flags then 6 else 0
  | _ => 0

def execute (operation : Operation) : Exec σ Nat := do
  let penalty := operation.takenPenalty (← flags)
  operation.perform
  return operation.cycles + penalty

end Operation

end Intel8080
