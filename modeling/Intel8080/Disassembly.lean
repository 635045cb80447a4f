import Intel8080.Memory.Basic
import Intel8080.Opcode.Listing

/-!
# Disassembly

The text of the instruction stored at an address. Only the bytes that belong to
the instruction are read, at addresses that wrap around the address space.
-/

namespace Intel8080

structure Disassembly where
  text : String
  length : Nat
  deriving DecidableEq

namespace Memory

def readOperandIf (m : Memory) (present : Bool) (address : UInt16) : Except OutOfBounds UInt8 :=
  if present then m.read address else .ok 0

/-- The instruction at an address. Its opcode, its first and its second operand
byte are read in this order. -/
def disassemble (m : Memory) (address : UInt16) : Except OutOfBounds Disassembly := do
  let entry := Opcode.entry (← m.read address)
  let low ← m.readOperandIf (1 < entry.length) (address + 1)
  let high ← m.readOperandIf (2 < entry.length) (address + 2)
  return ⟨entry.render low high, entry.length⟩

end Memory

end Intel8080
