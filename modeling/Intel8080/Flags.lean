import Intel8080.Word

/-!
# Condition flags

Five flags, and the byte in which PUSH PSW stores them: sign, zero, a clear bit,
auxiliary carry, a clear bit, parity, a set bit and carry, from bit 7 down to
bit 0.
-/

namespace Intel8080

structure Flags where
  sign : Bool
  zero : Bool
  auxCarry : Bool
  parity : Bool
  carry : Bool
  deriving DecidableEq

/-- True of a byte with an even number of set bits. -/
def evenParity (byte : UInt8) : Bool :=
  bitCount byte % 2 == 0

namespace Flags

def cleared : Flags :=
  ⟨false, false, false, false, false⟩

/-- The flags in one byte: bit 1 is set, bits 3 and 5 are clear. -/
def pack (f : Flags) : UInt8 :=
  UInt8.ofNat
    (128 * f.sign.toNat + 64 * f.zero.toNat + 16 * f.auxCarry.toNat + 4 * f.parity.toNat + 2 +
      f.carry.toNat)

def unpack (byte : UInt8) : Flags where
  sign := byte.toNat.testBit 7
  zero := byte.toNat.testBit 6
  auxCarry := byte.toNat.testBit 4
  parity := byte.toNat.testBit 2
  carry := byte.toNat.testBit 0

/-- Sign, zero and parity as a result shows them; both carries stay. -/
def ofResult (f : Flags) (result : UInt8) : Flags :=
  { f with
    sign := result.toNat.testBit 7
    zero := result == 0
    parity := evenParity result }

@[simp] theorem unpack_pack (f : Flags) : unpack f.pack = f := by
  obtain ⟨s, z, ac, p, cy⟩ := f
  cases s <;> cases z <;> cases ac <;> cases p <;> cases cy <;> rfl

end Flags

end Intel8080
