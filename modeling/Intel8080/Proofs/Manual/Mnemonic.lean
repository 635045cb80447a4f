import Intel8080.Opcode.Listing
import Intel8080.Operation.Decode

/-!
# Reading the data sheet

The data sheet spells each instruction as a mnemonic with operands. Reading a line of
it gives the operation that the line names, without a look at the bits of the opcode.
The main statement is that decoding the bits finds the same operation, and finds none
exactly where the sheet has an undefined slot or HLT.
-/

namespace Intel8080

/-! ## Operands as they are spelled -/

def Register.ofSymbol? : String → Option Register
  | "B" => some .b
  | "C" => some .c
  | "D" => some .d
  | "E" => some .e
  | "H" => some .h
  | "L" => some .l
  | "A" => some .a
  | _ => none

def Operand.ofSymbol? : String → Option Operand
  | "M" => some .memory
  | symbol => (Register.ofSymbol? symbol).map .register

def Pair.ofSymbol? : String → Option Pair
  | "B" => some .bc
  | "D" => some .de
  | "H" => some .hl
  | "SP" => some .sp
  | _ => none

def StackPair.ofSymbol? : String → Option StackPair
  | "B" => some .bc
  | "D" => some .de
  | "H" => some .hl
  | "PSW" => some .psw
  | _ => none

def Pointer.ofSymbol? : String → Option Pointer
  | "B" => some .bc
  | "D" => some .de
  | _ => none

def Condition.ofLetters? : List Char → Option Condition
  | ['N', 'Z'] => some .notZero
  | ['Z'] => some .zero
  | ['N', 'C'] => some .notCarry
  | ['C'] => some .carry
  | ['P', 'O'] => some .parityOdd
  | ['P', 'E'] => some .parityEven
  | ['P'] => some .plus
  | ['M'] => some .minus
  | _ => none

def AluOp.ofMnemonic? : String → Option AluOp
  | "ADD" => some .add
  | "ADC" => some .adc
  | "SUB" => some .sub
  | "SBB" => some .sbb
  | "ANA" => some .ana
  | "XRA" => some .xra
  | "ORA" => some .ora
  | "CMP" => some .cmp
  | _ => none

def AluOp.ofImmediateMnemonic? : String → Option AluOp
  | "ADI" => some .add
  | "ACI" => some .adc
  | "SUI" => some .sub
  | "SBI" => some .sbb
  | "ANI" => some .ana
  | "XRI" => some .xra
  | "ORI" => some .ora
  | "CPI" => some .cmp
  | _ => none

def restartOfSymbol? (symbol : String) : Option (Fin 8) :=
  ["0", "1", "2", "3", "4", "5", "6", "7"].findFinIdx? (· == symbol)

/-! ## Lines of the sheet -/

namespace Operation

def ofBareMnemonic? : String → Option Operation
  | "NOP" => some .nop
  | "RLC" => some .rlc
  | "RRC" => some .rrc
  | "RAL" => some .ral
  | "RAR" => some .rar
  | "DAA" => some .daa
  | "CMA" => some .cma
  | "STC" => some .stc
  | "CMC" => some .cmc
  | "RET" => some .ret
  | "PCHL" => some .pchl
  | "XTHL" => some .xthl
  | "XCHG" => some .xchg
  | "SPHL" => some .sphl
  | "DI" => some .di
  | "EI" => some .ei
  | mnemonic =>
      match mnemonic.toList with
      | 'R' :: letters => (Condition.ofLetters? letters).map .rcc
      | _ => none

def ofUnaryMnemonic? (mnemonic symbol : String) : Option Operation :=
  match mnemonic with
  | "STAX" => (Pointer.ofSymbol? symbol).map .stax
  | "LDAX" => (Pointer.ofSymbol? symbol).map .ldax
  | "INX" => (Pair.ofSymbol? symbol).map .inx
  | "DCX" => (Pair.ofSymbol? symbol).map .dcx
  | "DAD" => (Pair.ofSymbol? symbol).map .dad
  | "INR" => (Operand.ofSymbol? symbol).map .inr
  | "DCR" => (Operand.ofSymbol? symbol).map .dcr
  | "PUSH" => (StackPair.ofSymbol? symbol).map .push
  | "POP" => (StackPair.ofSymbol? symbol).map .pop
  | "RST" => (restartOfSymbol? symbol).map .rst
  | _ => do return .alu (← AluOp.ofMnemonic? mnemonic) (← Operand.ofSymbol? symbol)

def ofAddressMnemonic? : String → Option Operation
  | "SHLD" => some .shld
  | "LHLD" => some .lhld
  | "STA" => some .sta
  | "LDA" => some .lda
  | "JMP" => some .jmp
  | "CALL" => some .call
  | mnemonic =>
      match mnemonic.toList with
      | 'J' :: letters => (Condition.ofLetters? letters).map .jcc
      | 'C' :: letters => (Condition.ofLetters? letters).map .ccc
      | _ => none

def ofByteMnemonic? : String → Option Operation
  | "IN" => some .input
  | "OUT" => some .output
  | mnemonic => (AluOp.ofImmediateMnemonic? mnemonic).map .aluImmediate

end Operation

namespace Opcode

/-- The operation that a line of the sheet names. HLT names none. -/
def Entry.operation? (entry : Entry) : Option Operation :=
  match entry with
  | ⟨_, mnemonic, [], .none⟩ => Operation.ofBareMnemonic? mnemonic
  | ⟨_, "MOV", [target, source], .none⟩ => do
      return .mov (← Operand.ofSymbol? target) (← Operand.ofSymbol? source)
  | ⟨_, mnemonic, [symbol], .none⟩ => Operation.ofUnaryMnemonic? mnemonic symbol
  | ⟨_, "MVI", [target], .byte⟩ => (Operand.ofSymbol? target).map .mvi
  | ⟨_, "LXI", [pair], .word⟩ => (Pair.ofSymbol? pair).map .lxi
  | ⟨_, mnemonic, [], .byte⟩ => Operation.ofByteMnemonic? mnemonic
  | ⟨_, mnemonic, [], .address⟩ => Operation.ofAddressMnemonic? mnemonic
  | _ => none

def Refused (opcode : UInt8) : Prop :=
  opcode ∈ undefined ∨ opcode = halt

instance (opcode : UInt8) : Decidable (Refused opcode) :=
  inferInstanceAs (Decidable (opcode ∈ undefined ∨ opcode = halt))

end Opcode

/-! ## Agreement with the bits -/

namespace Operation

open Opcode

private theorem decode_table : ∀ n : Fin 256,
    if Refused (UInt8.ofNat n) then decode (UInt8.ofNat n) = none
    else decode (UInt8.ofNat n) = (entry (UInt8.ofNat n)).operation? ∧
      (decode (UInt8.ofNat n)).isSome := by
  decide +kernel

private theorem decode_line (opcode : UInt8) :
    if Refused opcode then decode opcode = none
    else decode opcode = (entry opcode).operation? ∧ (decode opcode).isSome := by
  have line := decode_table ⟨opcode.toNat, opcode.toNat_lt⟩
  rwa [UInt8.ofNat_toNat] at line

theorem decode_eq_none_iff (opcode : UInt8) : decode opcode = none ↔ Refused opcode := by
  have line := decode_line opcode
  split at line
  · exact ⟨fun _ => ‹_›, fun _ => line⟩
  · refine ⟨fun none => ?_, fun refused => absurd refused ‹_›⟩
    rw [none] at line
    cases line.2

/-- The bits of an opcode and its line of the sheet name the same operation. -/
theorem decode_eq_operation? {opcode : UInt8} (h : ¬ Refused opcode) :
    decode opcode = (entry opcode).operation? := by
  have line := decode_line opcode
  rw [if_neg h] at line
  exact line.1

end Operation

end Intel8080
