import Intel8080.Opcode.Entry

/-!
# The opcode listing

The data sheet of the processor, one entry for each of the 256 opcodes, in
order. Twelve opcodes are undefined; the sheet lists them as one-byte `NOP`s, so
that a disassembly can step over them, but they cannot be executed.
-/

namespace Intel8080.Opcode

/-- The opcodes without a meaning. -/
def undefined : List UInt8 :=
  [0x08, 0x10, 0x18, 0x20, 0x28, 0x30, 0x38, 0xcb, 0xd9, 0xdd, 0xed, 0xfd]

def halt : UInt8 := 0x76

/-- The opcode of RST n, which an interrupting device puts on the bus. Only the
three low bits of `n` count. -/
def rst (n : UInt8) : UInt8 :=
  UInt8.ofNat (0xc7 + 8 * (n.toNat % 8))

set_option maxRecDepth 2000 in
/-- The data sheet, indexed by opcode. -/
def listing : Array Entry := #[
  -- 00 to 0F
  ⟨1, "NOP", [], .none⟩,
  ⟨3, "LXI", ["B"], .word⟩,
  ⟨1, "STAX", ["B"], .none⟩,
  ⟨1, "INX", ["B"], .none⟩,
  ⟨1, "INR", ["B"], .none⟩,
  ⟨1, "DCR", ["B"], .none⟩,
  ⟨2, "MVI", ["B"], .byte⟩,
  ⟨1, "RLC", [], .none⟩,
  ⟨1, "NOP", [], .none⟩,
  ⟨1, "DAD", ["B"], .none⟩,
  ⟨1, "LDAX", ["B"], .none⟩,
  ⟨1, "DCX", ["B"], .none⟩,
  ⟨1, "INR", ["C"], .none⟩,
  ⟨1, "DCR", ["C"], .none⟩,
  ⟨2, "MVI", ["C"], .byte⟩,
  ⟨1, "RRC", [], .none⟩,
  -- 10 to 1F
  ⟨1, "NOP", [], .none⟩,
  ⟨3, "LXI", ["D"], .word⟩,
  ⟨1, "STAX", ["D"], .none⟩,
  ⟨1, "INX", ["D"], .none⟩,
  ⟨1, "INR", ["D"], .none⟩,
  ⟨1, "DCR", ["D"], .none⟩,
  ⟨2, "MVI", ["D"], .byte⟩,
  ⟨1, "RAL", [], .none⟩,
  ⟨1, "NOP", [], .none⟩,
  ⟨1, "DAD", ["D"], .none⟩,
  ⟨1, "LDAX", ["D"], .none⟩,
  ⟨1, "DCX", ["D"], .none⟩,
  ⟨1, "INR", ["E"], .none⟩,
  ⟨1, "DCR", ["E"], .none⟩,
  ⟨2, "MVI", ["E"], .byte⟩,
  ⟨1, "RAR", [], .none⟩,
  -- 20 to 2F
  ⟨1, "NOP", [], .none⟩,
  ⟨3, "LXI", ["H"], .word⟩,
  ⟨3, "SHLD", [], .address⟩,
  ⟨1, "INX", ["H"], .none⟩,
  ⟨1, "INR", ["H"], .none⟩,
  ⟨1, "DCR", ["H"], .none⟩,
  ⟨2, "MVI", ["H"], .byte⟩,
  ⟨1, "DAA", [], .none⟩,
  ⟨1, "NOP", [], .none⟩,
  ⟨1, "DAD", ["H"], .none⟩,
  ⟨3, "LHLD", [], .address⟩,
  ⟨1, "DCX", ["H"], .none⟩,
  ⟨1, "INR", ["L"], .none⟩,
  ⟨1, "DCR", ["L"], .none⟩,
  ⟨2, "MVI", ["L"], .byte⟩,
  ⟨1, "CMA", [], .none⟩,
  -- 30 to 3F
  ⟨1, "NOP", [], .none⟩,
  ⟨3, "LXI", ["SP"], .word⟩,
  ⟨3, "STA", [], .address⟩,
  ⟨1, "INX", ["SP"], .none⟩,
  ⟨1, "INR", ["M"], .none⟩,
  ⟨1, "DCR", ["M"], .none⟩,
  ⟨2, "MVI", ["M"], .byte⟩,
  ⟨1, "STC", [], .none⟩,
  ⟨1, "NOP", [], .none⟩,
  ⟨1, "DAD", ["SP"], .none⟩,
  ⟨3, "LDA", [], .address⟩,
  ⟨1, "DCX", ["SP"], .none⟩,
  ⟨1, "INR", ["A"], .none⟩,
  ⟨1, "DCR", ["A"], .none⟩,
  ⟨2, "MVI", ["A"], .byte⟩,
  ⟨1, "CMC", [], .none⟩,
  -- 40 to 4F
  ⟨1, "MOV", ["B", "B"], .none⟩,
  ⟨1, "MOV", ["B", "C"], .none⟩,
  ⟨1, "MOV", ["B", "D"], .none⟩,
  ⟨1, "MOV", ["B", "E"], .none⟩,
  ⟨1, "MOV", ["B", "H"], .none⟩,
  ⟨1, "MOV", ["B", "L"], .none⟩,
  ⟨1, "MOV", ["B", "M"], .none⟩,
  ⟨1, "MOV", ["B", "A"], .none⟩,
  ⟨1, "MOV", ["C", "B"], .none⟩,
  ⟨1, "MOV", ["C", "C"], .none⟩,
  ⟨1, "MOV", ["C", "D"], .none⟩,
  ⟨1, "MOV", ["C", "E"], .none⟩,
  ⟨1, "MOV", ["C", "H"], .none⟩,
  ⟨1, "MOV", ["C", "L"], .none⟩,
  ⟨1, "MOV", ["C", "M"], .none⟩,
  ⟨1, "MOV", ["C", "A"], .none⟩,
  -- 50 to 5F
  ⟨1, "MOV", ["D", "B"], .none⟩,
  ⟨1, "MOV", ["D", "C"], .none⟩,
  ⟨1, "MOV", ["D", "D"], .none⟩,
  ⟨1, "MOV", ["D", "E"], .none⟩,
  ⟨1, "MOV", ["D", "H"], .none⟩,
  ⟨1, "MOV", ["D", "L"], .none⟩,
  ⟨1, "MOV", ["D", "M"], .none⟩,
  ⟨1, "MOV", ["D", "A"], .none⟩,
  ⟨1, "MOV", ["E", "B"], .none⟩,
  ⟨1, "MOV", ["E", "C"], .none⟩,
  ⟨1, "MOV", ["E", "D"], .none⟩,
  ⟨1, "MOV", ["E", "E"], .none⟩,
  ⟨1, "MOV", ["E", "H"], .none⟩,
  ⟨1, "MOV", ["E", "L"], .none⟩,
  ⟨1, "MOV", ["E", "M"], .none⟩,
  ⟨1, "MOV", ["E", "A"], .none⟩,
  -- 60 to 6F
  ⟨1, "MOV", ["H", "B"], .none⟩,
  ⟨1, "MOV", ["H", "C"], .none⟩,
  ⟨1, "MOV", ["H", "D"], .none⟩,
  ⟨1, "MOV", ["H", "E"], .none⟩,
  ⟨1, "MOV", ["H", "H"], .none⟩,
  ⟨1, "MOV", ["H", "L"], .none⟩,
  ⟨1, "MOV", ["H", "M"], .none⟩,
  ⟨1, "MOV", ["H", "A"], .none⟩,
  ⟨1, "MOV", ["L", "B"], .none⟩,
  ⟨1, "MOV", ["L", "C"], .none⟩,
  ⟨1, "MOV", ["L", "D"], .none⟩,
  ⟨1, "MOV", ["L", "E"], .none⟩,
  ⟨1, "MOV", ["L", "H"], .none⟩,
  ⟨1, "MOV", ["L", "L"], .none⟩,
  ⟨1, "MOV", ["L", "M"], .none⟩,
  ⟨1, "MOV", ["L", "A"], .none⟩,
  -- 70 to 7F
  ⟨1, "MOV", ["M", "B"], .none⟩,
  ⟨1, "MOV", ["M", "C"], .none⟩,
  ⟨1, "MOV", ["M", "D"], .none⟩,
  ⟨1, "MOV", ["M", "E"], .none⟩,
  ⟨1, "MOV", ["M", "H"], .none⟩,
  ⟨1, "MOV", ["M", "L"], .none⟩,
  ⟨1, "HLT", [], .none⟩,
  ⟨1, "MOV", ["M", "A"], .none⟩,
  ⟨1, "MOV", ["A", "B"], .none⟩,
  ⟨1, "MOV", ["A", "C"], .none⟩,
  ⟨1, "MOV", ["A", "D"], .none⟩,
  ⟨1, "MOV", ["A", "E"], .none⟩,
  ⟨1, "MOV", ["A", "H"], .none⟩,
  ⟨1, "MOV", ["A", "L"], .none⟩,
  ⟨1, "MOV", ["A", "M"], .none⟩,
  ⟨1, "MOV", ["A", "A"], .none⟩,
  -- 80 to 8F
  ⟨1, "ADD", ["B"], .none⟩,
  ⟨1, "ADD", ["C"], .none⟩,
  ⟨1, "ADD", ["D"], .none⟩,
  ⟨1, "ADD", ["E"], .none⟩,
  ⟨1, "ADD", ["H"], .none⟩,
  ⟨1, "ADD", ["L"], .none⟩,
  ⟨1, "ADD", ["M"], .none⟩,
  ⟨1, "ADD", ["A"], .none⟩,
  ⟨1, "ADC", ["B"], .none⟩,
  ⟨1, "ADC", ["C"], .none⟩,
  ⟨1, "ADC", ["D"], .none⟩,
  ⟨1, "ADC", ["E"], .none⟩,
  ⟨1, "ADC", ["H"], .none⟩,
  ⟨1, "ADC", ["L"], .none⟩,
  ⟨1, "ADC", ["M"], .none⟩,
  ⟨1, "ADC", ["A"], .none⟩,
  -- 90 to 9F
  ⟨1, "SUB", ["B"], .none⟩,
  ⟨1, "SUB", ["C"], .none⟩,
  ⟨1, "SUB", ["D"], .none⟩,
  ⟨1, "SUB", ["E"], .none⟩,
  ⟨1, "SUB", ["H"], .none⟩,
  ⟨1, "SUB", ["L"], .none⟩,
  ⟨1, "SUB", ["M"], .none⟩,
  ⟨1, "SUB", ["A"], .none⟩,
  ⟨1, "SBB", ["B"], .none⟩,
  ⟨1, "SBB", ["C"], .none⟩,
  ⟨1, "SBB", ["D"], .none⟩,
  ⟨1, "SBB", ["E"], .none⟩,
  ⟨1, "SBB", ["H"], .none⟩,
  ⟨1, "SBB", ["L"], .none⟩,
  ⟨1, "SBB", ["M"], .none⟩,
  ⟨1, "SBB", ["A"], .none⟩,
  -- A0 to AF
  ⟨1, "ANA", ["B"], .none⟩,
  ⟨1, "ANA", ["C"], .none⟩,
  ⟨1, "ANA", ["D"], .none⟩,
  ⟨1, "ANA", ["E"], .none⟩,
  ⟨1, "ANA", ["H"], .none⟩,
  ⟨1, "ANA", ["L"], .none⟩,
  ⟨1, "ANA", ["M"], .none⟩,
  ⟨1, "ANA", ["A"], .none⟩,
  ⟨1, "XRA", ["B"], .none⟩,
  ⟨1, "XRA", ["C"], .none⟩,
  ⟨1, "XRA", ["D"], .none⟩,
  ⟨1, "XRA", ["E"], .none⟩,
  ⟨1, "XRA", ["H"], .none⟩,
  ⟨1, "XRA", ["L"], .none⟩,
  ⟨1, "XRA", ["M"], .none⟩,
  ⟨1, "XRA", ["A"], .none⟩,
  -- B0 to BF
  ⟨1, "ORA", ["B"], .none⟩,
  ⟨1, "ORA", ["C"], .none⟩,
  ⟨1, "ORA", ["D"], .none⟩,
  ⟨1, "ORA", ["E"], .none⟩,
  ⟨1, "ORA", ["H"], .none⟩,
  ⟨1, "ORA", ["L"], .none⟩,
  ⟨1, "ORA", ["M"], .none⟩,
  ⟨1, "ORA", ["A"], .none⟩,
  ⟨1, "CMP", ["B"], .none⟩,
  ⟨1, "CMP", ["C"], .none⟩,
  ⟨1, "CMP", ["D"], .none⟩,
  ⟨1, "CMP", ["E"], .none⟩,
  ⟨1, "CMP", ["H"], .none⟩,
  ⟨1, "CMP", ["L"], .none⟩,
  ⟨1, "CMP", ["M"], .none⟩,
  ⟨1, "CMP", ["A"], .none⟩,
  -- C0 to CF
  ⟨1, "RNZ", [], .none⟩,
  ⟨1, "POP", ["B"], .none⟩,
  ⟨3, "JNZ", [], .address⟩,
  ⟨3, "JMP", [], .address⟩,
  ⟨3, "CNZ", [], .address⟩,
  ⟨1, "PUSH", ["B"], .none⟩,
  ⟨2, "ADI", [], .byte⟩,
  ⟨1, "RST", ["0"], .none⟩,
  ⟨1, "RZ", [], .none⟩,
  ⟨1, "RET", [], .none⟩,
  ⟨3, "JZ", [], .address⟩,
  ⟨1, "NOP", [], .none⟩,
  ⟨3, "CZ", [], .address⟩,
  ⟨3, "CALL", [], .address⟩,
  ⟨2, "ACI", [], .byte⟩,
  ⟨1, "RST", ["1"], .none⟩,
  -- D0 to DF
  ⟨1, "RNC", [], .none⟩,
  ⟨1, "POP", ["D"], .none⟩,
  ⟨3, "JNC", [], .address⟩,
  ⟨2, "OUT", [], .byte⟩,
  ⟨3, "CNC", [], .address⟩,
  ⟨1, "PUSH", ["D"], .none⟩,
  ⟨2, "SUI", [], .byte⟩,
  ⟨1, "RST", ["2"], .none⟩,
  ⟨1, "RC", [], .none⟩,
  ⟨1, "NOP", [], .none⟩,
  ⟨3, "JC", [], .address⟩,
  ⟨2, "IN", [], .byte⟩,
  ⟨3, "CC", [], .address⟩,
  ⟨1, "NOP", [], .none⟩,
  ⟨2, "SBI", [], .byte⟩,
  ⟨1, "RST", ["3"], .none⟩,
  -- E0 to EF
  ⟨1, "RPO", [], .none⟩,
  ⟨1, "POP", ["H"], .none⟩,
  ⟨3, "JPO", [], .address⟩,
  ⟨1, "XTHL", [], .none⟩,
  ⟨3, "CPO", [], .address⟩,
  ⟨1, "PUSH", ["H"], .none⟩,
  ⟨2, "ANI", [], .byte⟩,
  ⟨1, "RST", ["4"], .none⟩,
  ⟨1, "RPE", [], .none⟩,
  ⟨1, "PCHL", [], .none⟩,
  ⟨3, "JPE", [], .address⟩,
  ⟨1, "XCHG", [], .none⟩,
  ⟨3, "CPE", [], .address⟩,
  ⟨1, "NOP", [], .none⟩,
  ⟨2, "XRI", [], .byte⟩,
  ⟨1, "RST", ["5"], .none⟩,
  -- F0 to FF
  ⟨1, "RP", [], .none⟩,
  ⟨1, "POP", ["PSW"], .none⟩,
  ⟨3, "JP", [], .address⟩,
  ⟨1, "DI", [], .none⟩,
  ⟨3, "CP", [], .address⟩,
  ⟨1, "PUSH", ["PSW"], .none⟩,
  ⟨2, "ORI", [], .byte⟩,
  ⟨1, "RST", ["6"], .none⟩,
  ⟨1, "RM", [], .none⟩,
  ⟨1, "SPHL", [], .none⟩,
  ⟨3, "JM", [], .address⟩,
  ⟨1, "EI", [], .none⟩,
  ⟨3, "CM", [], .address⟩,
  ⟨1, "NOP", [], .none⟩,
  ⟨2, "CPI", [], .byte⟩,
  ⟨1, "RST", ["7"], .none⟩]

set_option maxRecDepth 4000 in
theorem size_listing : listing.size = 256 := rfl

def entry (opcode : UInt8) : Entry :=
  have : opcode.toNat < listing.size := size_listing ▸ opcode.toNat_lt
  listing[opcode.toNat]

/-- The lengths that the sheet lists leave room for the operand bytes, and for no more. -/
theorem length_entry (opcode : UInt8) :
    (entry opcode).length = 1 + (entry opcode).immediate.width := by
  have listed : listing.all (fun line => line.length == 1 + line.immediate.width) = true := by
    decide +kernel
  exact eq_of_beq (Array.all_eq_true.mp listed opcode.toNat (size_listing ▸ opcode.toNat_lt))

theorem length_entry_pos (opcode : UInt8) : 0 < (entry opcode).length := by
  rw [length_entry, Nat.add_comm]
  exact Nat.succ_pos _

theorem length_entry_le (opcode : UInt8) : (entry opcode).length ≤ 3 := by
  rw [length_entry]
  cases (entry opcode).immediate <;> decide

end Intel8080.Opcode
