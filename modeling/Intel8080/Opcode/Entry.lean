import Intel8080.Word
import Intel8080.Text.Hex

/-!
# Data sheet entries

What a data sheet says about one opcode: its mnemonic, the operands that the
opcode itself names, what the bytes after the opcode hold, and how long all of it is.
-/

namespace Intel8080.Opcode

inductive Immediate where
  | none
  | byte
  /-- A data word, low byte first. -/
  | word
  /-- An address, low byte first. -/
  | address
  deriving DecidableEq

structure Entry where
  /-- The length of the encoded instruction, the opcode included. -/
  length : Nat
  mnemonic : String
  operands : List String
  immediate : Immediate
  deriving DecidableEq

namespace Immediate

def width : Immediate → Nat
  | .none => 0
  | .byte => 1
  | .word => 2
  | .address => 2

/-- The operand text that stands for the bytes, in general form. -/
def placeholder : Immediate → List String
  | .none => []
  | .byte => ["\x7bd8\x7d"]
  | .word => ["\x7bd16\x7d"]
  | .address => ["\x7baddr\x7d"]

def text (low high : UInt8) : Immediate → List String
  | .none => []
  | .byte => ["$" ++ Hex.byte low]
  | .word => ["$" ++ Hex.word (joinBytes high low)]
  | .address => ["$" ++ Hex.word (joinBytes high low)]

end Immediate

namespace Entry

def layout (entry : Entry) (immediate : List String) : String :=
  match entry.operands ++ immediate with
  | [] => entry.mnemonic
  | operands => entry.mnemonic ++ " " ++ String.intercalate ", " operands

def template (entry : Entry) : String :=
  entry.layout entry.immediate.placeholder

def render (entry : Entry) (low high : UInt8) : String :=
  entry.layout (entry.immediate.text low high)

end Entry

end Intel8080.Opcode
