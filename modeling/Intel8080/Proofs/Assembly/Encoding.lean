import Intel8080.Proofs.Arithmetic.Results
import Intel8080.Proofs.Devices.Traffic
import Intel8080.Proofs.Stack.Linkage
import Intel8080.Proofs.Stack.Transfers

/-!
# Encoding operations

The opcode of an operation is put together from the codes of its operands, which decoding
takes apart again. So a line of the data sheet determines the opcode that it belongs to, up to
the undefined slots, which are listed as if they were `NOP`.
-/

namespace Intel8080

/-! ## Operations -/

def Pointer.code : Pointer → Nat
  | .bc => 0
  | .de => 1

namespace Operation

/-- The opcode of an operation. Moving M to itself has none; the slot is that of HLT. -/
def encode : Operation → UInt8
  | .nop => 0x00
  | .lxi pair => UInt8.ofNat (0x01 + 16 * pair.code)
  | .stax pointer => UInt8.ofNat (0x02 + 16 * pointer.code)
  | .ldax pointer => UInt8.ofNat (0x0A + 16 * pointer.code)
  | .shld => 0x22
  | .lhld => 0x2A
  | .sta => 0x32
  | .lda => 0x3A
  | .inx pair => UInt8.ofNat (0x03 + 16 * pair.code)
  | .dcx pair => UInt8.ofNat (0x0B + 16 * pair.code)
  | .dad pair => pair.addOpcode
  | .inr target => target.incrementOpcode
  | .dcr target => target.decrementOpcode
  | .mvi target => UInt8.ofNat (0x06 + 8 * target.code)
  | .rlc => 0x07
  | .rrc => 0x0F
  | .ral => 0x17
  | .rar => 0x1F
  | .daa => 0x27
  | .cma => 0x2F
  | .stc => 0x37
  | .cmc => 0x3F
  | .mov target source => UInt8.ofNat (0x40 + 8 * target.code + source.code)
  | .alu op source => (AluForm.source source).opcode op
  | .aluImmediate op => AluForm.immediate.opcode op
  | .jmp => 0xC3
  | .jcc condition => UInt8.ofNat (0xC2 + 8 * condition.code)
  | .call => Opcode.call
  | .ccc condition => condition.callOpcode
  | .ret => Opcode.ret
  | .rcc condition => condition.returnOpcode
  | .pchl => 0xE9
  | .rst n => restartOpcode n
  | .push source => source.pushOpcode
  | .pop target => target.popOpcode
  | .xthl => 0xE3
  | .xchg => 0xEB
  | .sphl => 0xF9
  | .input => Opcode.input
  | .output => Opcode.output
  | .di => 0xF3
  | .ei => 0xFB

private theorem encode_table : ∀ n : Fin 256,
    Opcode.Refused (UInt8.ofNat n) ∨
      (decode (UInt8.ofNat n)).map encode = some (UInt8.ofNat n) := by
  decide +kernel

theorem map_encode_decode {opcode : UInt8} (executable : ¬ Opcode.Refused opcode) :
    (decode opcode).map encode = some opcode := by
  have line := encode_table ⟨opcode.toNat, opcode.toNat_lt⟩
  rw [UInt8.ofNat_toNat] at line
  exact line.resolve_left executable

end Operation

/-! ## Lines of the sheet -/

namespace Opcode

def Entry.opcode? (entry : Entry) : Option UInt8 :=
  if entry = Opcode.entry halt then some halt else entry.operation?.map Operation.encode

theorem opcode?_entry {opcode : UInt8} (defined : opcode ∉ undefined) :
    (entry opcode).opcode? = some opcode := by
  by_cases halted : opcode = halt
  · subst halted
    exact if_pos rfl
  · have executable : ¬ Refused opcode := fun refused => refused.elim defined halted
    have encoded := Operation.map_encode_decode executable
    rw [Operation.decode_eq_operation? executable] at encoded
    rw [Entry.opcode?, if_neg, encoded]
    intro same
    rw [same] at encoded
    cases encoded

end Opcode

end Intel8080
