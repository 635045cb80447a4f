import Intel8080.Word

/-!
# The shift register

The game draws at any bit position, which the processor could only do slowly. The
board helps with a word that a byte pushed in moves down by eight bits; a read shows
the eight bits that start some bits below its top.
-/

namespace Intel8080.Invaders

/-- The last two bytes pushed, and how far below the top the window starts. -/
structure ShiftRegister where
  value : UInt16
  offset : UInt8
  deriving DecidableEq

namespace ShiftRegister

def cleared : ShiftRegister :=
  ⟨0, 0⟩

/-- Pushes a byte. The byte before the previous one is lost. -/
def push (r : ShiftRegister) (data : UInt8) : ShiftRegister :=
  { r with value := (r.value >>> 8) ||| (data.toUInt16 <<< 8) }

/-- Only the three low bits of an offset are wired. -/
def setOffset (r : ShiftRegister) (offset : UInt8) : ShiftRegister :=
  { r with offset := offset &&& 0x07 }

def read (r : ShiftRegister) : UInt8 :=
  (r.value >>> (8 - r.offset).toUInt16).toUInt8

end ShiftRegister

end Intel8080.Invaders
