import Intel8080.Text.Hex

/-!
# Faults

Everything that can stop an instruction. A fault is a cause with its data; its
wording is one function away.
-/

namespace Intel8080

/-- An access of `length` bytes at `address` that reaches past the end of a
memory of `capacity` bytes. -/
structure OutOfBounds where
  address : Nat
  length : Nat
  capacity : Nat
  deriving DecidableEq

inductive PortDirection where
  | read
  | write
  deriving DecidableEq

/-- Why an instruction could not be carried out. -/
inductive Fault where
  | outOfBounds (access : OutOfBounds)
  /-- The opcode at `address` has no meaning here: an undefined slot, or HLT. -/
  | unimplementedOpcode (opcode : UInt8) (address : UInt16)
  | missingPortHandler (direction : PortDirection) (port : UInt8)
  deriving DecidableEq

namespace OutOfBounds

def message (access : OutOfBounds) : String :=
  s!"{access.length} byte(s) at {Hex.literal 4 access.address} exceed memory capacity " ++
    Hex.literal 1 access.capacity

end OutOfBounds

namespace PortDirection

def label : PortDirection → String
  | .read => "read"
  | .write => "write"

end PortDirection

namespace Fault

def message : Fault → String
  | .outOfBounds access => access.message
  | .unimplementedOpcode opcode address =>
      s!"unimplemented opcode {Hex.byteLiteral opcode} at {Hex.wordLiteral address}"
  | .missingPortHandler direction port =>
      s!"no {direction.label} port handler registered (port {Hex.byteLiteral port})"

end Fault

end Intel8080
