import Intel8080.Flags
import Intel8080.Operation.Basic

/-!
# Arithmetic and logic

What each operation makes of its operands and the flags. All sums are taken in
the naturals and cut to the width afterwards, so a carry is a sum that does not
fit and a borrow is a subtrahend that is too large.
-/

namespace Intel8080

structure AluResult where
  value : UInt8
  flags : Flags
  deriving DecidableEq

namespace Alu

def add (flags : Flags) (a operand : UInt8) (carry : Bool) : AluResult :=
  let sum := a.toNat + operand.toNat + carry.toNat
  let result := UInt8.ofNat sum
  ⟨result,
    { flags.ofResult result with
      auxCarry := decide (15 < a.toNat % 16 + operand.toNat % 16 + carry.toNat)
      carry := decide (255 < sum) }⟩

/-- The difference of two bytes and a borrow in. Carry is set when the
subtrahend exceeds `a`, auxiliary carry when that is so of the low halves. -/
def subtract (flags : Flags) (a operand : UInt8) (borrow : Bool) : AluResult :=
  let subtrahend := operand.toNat + borrow.toNat
  let result := UInt8.ofNat (a.toNat + 512 - subtrahend)
  ⟨result,
    { flags.ofResult result with
      auxCarry := decide (a.toNat % 16 < operand.toNat % 16 + borrow.toNat)
      carry := decide (a.toNat < subtrahend) }⟩

def logical (flags : Flags) (result : UInt8) : AluResult :=
  ⟨result, { flags.ofResult result with auxCarry := false, carry := false }⟩

/-- The accumulator and the flags after one of the eight accumulator operations.
A comparison sets the flags of a subtraction and keeps the accumulator. -/
def apply (op : AluOp) (flags : Flags) (a operand : UInt8) : AluResult :=
  match op with
  | .add => add flags a operand false
  | .adc => add flags a operand flags.carry
  | .sub => subtract flags a operand false
  | .sbb => subtract flags a operand flags.carry
  | .ana => logical flags (a &&& operand)
  | .xra => logical flags (a ^^^ operand)
  | .ora => logical flags (a ||| operand)
  | .cmp => { subtract flags a operand false with value := a }

def increment (flags : Flags) (value : UInt8) : AluResult :=
  let result := value + 1
  ⟨result, { flags.ofResult result with auxCarry := decide (value.toNat % 16 = 15) }⟩

def decrement (flags : Flags) (value : UInt8) : AluResult :=
  let result := value - 1
  ⟨result, { flags.ofResult result with auxCarry := decide (value.toNat % 16 = 0) }⟩

def addWords (x y : UInt16) : UInt16 × Bool :=
  (x + y, decide (65535 < x.toNat + y.toNat))

/-- Corrects the accumulator after an addition of two packed decimals. The low
digit is raised by six if it is no digit or auxiliary carry is set; the high
digit, as the first correction leaves it, if it is no digit or carry is set. -/
def decimalAdjust (flags : Flags) (a : UInt8) : AluResult :=
  let low := a.toNat % 16
  let raiseLow := decide (9 < low) || flags.auxCarry
  let first := if raiseLow then (a.toNat + 6) % 256 else a.toNat
  let raiseHigh := decide (9 < first / 16) || flags.carry
  let result := UInt8.ofNat (if raiseHigh then first + 96 else first)
  ⟨result,
    { flags.ofResult result with
      auxCarry := raiseLow && decide (9 ≤ low)
      carry := raiseHigh }⟩

def rotateLeft (flags : Flags) (a : UInt8) : AluResult :=
  ⟨UInt8.ofNat (2 * a.toNat + a.toNat / 128), { flags with carry := a.toNat.testBit 7 }⟩

def rotateRight (flags : Flags) (a : UInt8) : AluResult :=
  ⟨UInt8.ofNat (a.toNat / 2 + 128 * (a.toNat % 2)), { flags with carry := a.toNat.testBit 0 }⟩

def rotateLeftThroughCarry (flags : Flags) (a : UInt8) : AluResult :=
  ⟨UInt8.ofNat (2 * a.toNat + flags.carry.toNat), { flags with carry := a.toNat.testBit 7 }⟩

def rotateRightThroughCarry (flags : Flags) (a : UInt8) : AluResult :=
  ⟨UInt8.ofNat (a.toNat / 2 + 128 * flags.carry.toNat), { flags with carry := a.toNat.testBit 0 }⟩

end Alu

namespace Condition

def holds (flags : Flags) : Condition → Bool
  | .notZero => !flags.zero
  | .zero => flags.zero
  | .notCarry => !flags.carry
  | .carry => flags.carry
  | .parityOdd => !flags.parity
  | .parityEven => flags.parity
  | .plus => !flags.sign
  | .minus => flags.sign

end Condition

end Intel8080
