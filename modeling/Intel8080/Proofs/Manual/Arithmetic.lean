import Mathlib.Algebra.GroupWithZero.Nat
import Intel8080.Alu

/-!
# The arithmetic of the manual

What the programmer's manual says about results and flags, on integers. A sum or a
difference is taken exactly; its carry says that it does not fit a byte, and its
auxiliary carry says the same of the low halves alone. Rotations through carry turn
the nine bits of carry and accumulator. Each statement ends in an equation with the
unit that computes it.
-/

namespace Intel8080.Manual

def ones (byte : UInt8) : Nat :=
  ((List.range 8).map fun i => (byte.toNat.testBit i).toNat).sum

/-- Sign, zero and parity of a byte. -/
def signed (flags : Flags) (value : UInt8) : Flags :=
  { flags with
    sign := decide (128 ≤ value.toNat)
    zero := decide (value = 0)
    parity := decide (2 ∣ ones value) }

/-- The byte left of an exact result, with both carries taken from exact results. -/
def ofExact (flags : Flags) (exact low : Int) : AluResult :=
  let value := UInt8.ofInt exact
  ⟨value,
    { signed flags value with
      auxCarry := !decide (0 ≤ low ∧ low < 16)
      carry := !decide (0 ≤ exact ∧ exact < 256) }⟩

def lowHalf (byte : UInt8) : Int := byte.toNat % 16

def plus (flags : Flags) (a value : UInt8) (carry : Bool) : AluResult :=
  ofExact flags (a.toNat + value.toNat + carry.toNat) (lowHalf a + lowHalf value + carry.toNat)

def minus (flags : Flags) (a value : UInt8) (borrow : Bool) : AluResult :=
  ofExact flags (a.toNat - value.toNat - borrow.toNat) (lowHalf a - lowHalf value - borrow.toNat)

def bitwise (flags : Flags) (value : UInt8) : AluResult :=
  ⟨value, { signed flags value with auxCarry := false, carry := false }⟩

def accumulate (op : AluOp) (flags : Flags) (a value : UInt8) : AluResult :=
  match op with
  | .add => plus flags a value false
  | .adc => plus flags a value flags.carry
  | .sub => minus flags a value false
  | .sbb => minus flags a value flags.carry
  | .ana => bitwise flags (a &&& value)
  | .xra => bitwise flags (a ^^^ value)
  | .ora => bitwise flags (a ||| value)
  | .cmp => { minus flags a value false with value := a }

def keepingCarry (flags : Flags) (result : AluResult) : AluResult :=
  { result with flags := { result.flags with carry := flags.carry } }

def increase (flags : Flags) (value : UInt8) : AluResult :=
  keepingCarry flags (plus flags value 1 false)

def decrease (flags : Flags) (value : UInt8) : AluResult :=
  keepingCarry flags (minus flags value 1 false)

def decimalLow (auxCarry : Bool) (a : UInt8) : UInt8 × Bool :=
  if 9 < a.toNat % 16 ∨ auxCarry then (a + 6, decide (9 ≤ a.toNat % 16)) else (a, false)

def decimalHigh (carry : Bool) (a : UInt8) : UInt8 × Bool :=
  if 9 < a.toNat / 16 ∨ carry then
    (UInt8.ofNat ((a.toNat / 16 + 6) % 16 * 16 + a.toNat % 16), true)
  else
    (a, false)

def decimal (flags : Flags) (a : UInt8) : AluResult :=
  let low := decimalLow flags.auxCarry a
  let high := decimalHigh flags.carry low.1
  ⟨high.1, { signed flags high.1 with auxCarry := low.2, carry := high.2 }⟩

def turnLeft (flags : Flags) (a : UInt8) : AluResult :=
  ⟨⟨a.toBitVec.rotateLeft 1⟩, { flags with carry := a.toBitVec.msb }⟩

def turnRight (flags : Flags) (a : UInt8) : AluResult :=
  ⟨⟨a.toBitVec.rotateRight 1⟩, { flags with carry := a.toBitVec.getLsbD 0 }⟩

/-- Carry above the accumulator, as nine bits. -/
def nineBits (flags : Flags) (a : UInt8) : BitVec 9 :=
  BitVec.cons flags.carry a.toBitVec

def ofNineBits (flags : Flags) (bits : BitVec 9) : AluResult :=
  ⟨⟨bits.setWidth 8⟩, { flags with carry := bits.msb }⟩

def turnLeftThroughCarry (flags : Flags) (a : UInt8) : AluResult :=
  ofNineBits flags ((nineBits flags a).rotateLeft 1)

def turnRightThroughCarry (flags : Flags) (a : UInt8) : AluResult :=
  ofNineBits flags ((nineBits flags a).rotateRight 1)

def wordSum (x y : UInt16) : UInt16 × Bool :=
  (UInt16.ofNat (x.toNat + y.toNat), decide (2 ^ 16 ≤ x.toNat + y.toNat))

/-! ## Agreement with the unit -/

theorem ones_eq_bitCount (byte : UInt8) : ones byte = bitCount byte := by
  simp [ones, bitCount, List.range, List.range.loop, Nat.toNat_testBit, Nat.add_assoc]

theorem testBit_seven (byte : UInt8) : byte.toNat.testBit 7 = decide (128 ≤ byte.toNat) := by
  have hb := byte.toNat_lt
  rw [Nat.testBit_eq_decide_div_mod_eq]
  exact decide_eq_decide.mpr (by omega)

theorem evenParity_eq (byte : UInt8) : evenParity byte = decide (2 ∣ ones byte) := by
  rw [evenParity, ← ones_eq_bitCount]
  exact decide_eq_decide.mpr (Nat.dvd_iff_mod_eq_zero ..).symm

theorem ofResult_eq_signed (flags : Flags) (value : UInt8) :
    flags.ofResult value = signed flags value := by
  rw [Flags.ofResult, testBit_seven, evenParity_eq]
  rfl

theorem toNat_ofInt (x : Int) : (UInt8.ofInt x).toNat = (x % 256).toNat := by
  simp only [UInt8.ofInt, UInt8.toNat_ofNat']
  omega

theorem add_eq_plus (flags : Flags) (a value : UInt8) (carry : Bool) :
    Alu.add flags a value carry = plus flags a value carry := by
  have result : UInt8.ofNat (a.toNat + value.toNat + carry.toNat) =
      UInt8.ofInt (a.toNat + value.toNat + carry.toNat) := by
    apply UInt8.toNat_inj.mp
    rw [toNat_ofInt, UInt8.toNat_ofNat']
    omega
  have half : decide (15 < a.toNat % 16 + value.toNat % 16 + carry.toNat) =
      !decide (0 ≤ lowHalf a + lowHalf value + carry.toNat ∧
        lowHalf a + lowHalf value + carry.toNat < 16) := by
    rw [← decide_not]
    exact decide_eq_decide.mpr (by unfold lowHalf; omega)
  have full : decide (255 < a.toNat + value.toNat + carry.toNat) =
      !decide ((0 : Int) ≤ a.toNat + value.toNat + carry.toNat ∧
        (a.toNat : Int) + value.toNat + carry.toNat < 256) := by
    rw [← decide_not]
    exact decide_eq_decide.mpr (by omega)
  simp only [Alu.add, plus, ofExact, result, half, full, ofResult_eq_signed]

theorem subtract_eq_minus (flags : Flags) (a value : UInt8) (borrow : Bool) :
    Alu.subtract flags a value borrow = minus flags a value borrow := by
  have ha := a.toNat_lt
  have hv := value.toNat_lt
  have hb := borrow.toNat_le
  have result : UInt8.ofNat (a.toNat + 512 - (value.toNat + borrow.toNat)) =
      UInt8.ofInt (a.toNat - value.toNat - borrow.toNat) := by
    apply UInt8.toNat_inj.mp
    rw [toNat_ofInt, UInt8.toNat_ofNat']
    omega
  have half : decide (a.toNat % 16 < value.toNat % 16 + borrow.toNat) =
      !decide (0 ≤ lowHalf a - lowHalf value - borrow.toNat ∧
        lowHalf a - lowHalf value - borrow.toNat < 16) := by
    rw [← decide_not]
    exact decide_eq_decide.mpr (by unfold lowHalf; omega)
  have full : decide (a.toNat < value.toNat + borrow.toNat) =
      !decide ((0 : Int) ≤ a.toNat - value.toNat - borrow.toNat ∧
        (a.toNat : Int) - value.toNat - borrow.toNat < 256) := by
    rw [← decide_not]
    exact decide_eq_decide.mpr (by omega)
  simp only [Alu.subtract, minus, ofExact, result, half, full, ofResult_eq_signed]

theorem apply_eq_accumulate (op : AluOp) (flags : Flags) (a value : UInt8) :
    Alu.apply op flags a value = accumulate op flags a value := by
  cases op with
  | add => exact add_eq_plus ..
  | adc => exact add_eq_plus ..
  | sub => exact subtract_eq_minus ..
  | sbb => exact subtract_eq_minus ..
  | cmp => rw [Alu.apply, accumulate, subtract_eq_minus]
  | ana => rw [Alu.apply, accumulate, Alu.logical, bitwise, ofResult_eq_signed]
  | xra => rw [Alu.apply, accumulate, Alu.logical, bitwise, ofResult_eq_signed]
  | ora => rw [Alu.apply, accumulate, Alu.logical, bitwise, ofResult_eq_signed]

theorem increment_eq_increase (flags : Flags) (value : UInt8) :
    Alu.increment flags value = increase flags value := by
  have result : value + 1 = UInt8.ofNat (value.toNat + (1 : UInt8).toNat + false.toNat) := by
    simp
  have half : decide (value.toNat % 16 = 15) =
      decide (15 < value.toNat % 16 + (1 : UInt8).toNat % 16 + false.toNat) := by
    exact decide_eq_decide.mpr (by simp; omega)
  rw [increase, ← add_eq_plus]
  simp only [Alu.increment, Alu.add, keepingCarry, ← result, half]
  rfl

theorem decrement_eq_decrease (flags : Flags) (value : UInt8) :
    Alu.decrement flags value = decrease flags value := by
  have result : value - 1 =
      UInt8.ofNat (value.toNat + 512 - ((1 : UInt8).toNat + false.toNat)) := by
    apply UInt8.toNat_inj.mp
    simp [UInt8.toNat_sub]
    omega
  have half : decide (value.toNat % 16 = 0) =
      decide (value.toNat % 16 < (1 : UInt8).toNat % 16 + false.toNat) := by
    exact decide_eq_decide.mpr (by simp)
  rw [decrease, ← subtract_eq_minus]
  simp only [Alu.decrement, Alu.subtract, keepingCarry, ← result, half]
  rfl

theorem decimalLow_eq (auxCarry : Bool) (a : UInt8) :
    decimalLow auxCarry a =
      let raise := decide (9 < a.toNat % 16) || auxCarry
      (UInt8.ofNat (if raise then a.toNat + 6 else a.toNat),
        raise && decide (9 ≤ a.toNat % 16)) := by
  unfold decimalLow
  by_cases digit : 9 < a.toNat % 16 <;> cases auxCarry <;> simp [digit]

theorem decimalHigh_eq (carry : Bool) (a : UInt8) :
    decimalHigh carry a =
      let raise := decide (9 < a.toNat / 16) || carry
      (UInt8.ofNat (if raise then a.toNat + 96 else a.toNat), raise) := by
  have ha := a.toNat_lt
  have raised : UInt8.ofNat ((a.toNat / 16 + 6) % 16 * 16 + a.toNat % 16) =
      UInt8.ofNat (a.toNat + 96) := by
    apply UInt8.toNat_inj.mp
    rw [UInt8.toNat_ofNat', UInt8.toNat_ofNat']
    omega
  unfold decimalHigh
  by_cases digit : 9 < a.toNat / 16 <;> cases carry <;> simp [digit, raised]

theorem decimalAdjust_eq_decimal (flags : Flags) (a : UInt8) :
    Alu.decimalAdjust flags a = decimal flags a := by
  have ha := a.toNat_lt
  have first (raise : Bool) : (UInt8.ofNat (if raise then a.toNat + 6 else a.toNat)).toNat =
      if raise then (a.toNat + 6) % 256 else a.toNat := by
    cases raise <;> simp
  simp only [Alu.decimalAdjust, decimal, decimalLow_eq, decimalHigh_eq, first, ofResult_eq_signed]

theorem addWords_eq_wordSum (x y : UInt16) : Alu.addWords x y = wordSum x y := by
  have sum : x + y = UInt16.ofNat (x.toNat + y.toNat) := by simp
  rw [Alu.addWords, wordSum, sum]
  rfl

/-! ## Rotations -/

theorem forall_byte {P : UInt8 → Prop} (h : ∀ n : Fin 256, P ⟨⟨n⟩⟩) (byte : UInt8) : P byte :=
  h byte.toBitVec.toFin

set_option maxRecDepth 4096 in
theorem rotateLeft_eq (flags : Flags) (a : UInt8) : Alu.rotateLeft flags a = turnLeft flags a := by
  have value : UInt8.ofNat (2 * a.toNat + a.toNat / 128) = ⟨a.toBitVec.rotateLeft 1⟩ := by
    revert a
    exact forall_byte (by decide)
  rw [Alu.rotateLeft, value]
  rfl

set_option maxRecDepth 4096 in
theorem rotateRight_eq (flags : Flags) (a : UInt8) :
    Alu.rotateRight flags a = turnRight flags a := by
  have value : UInt8.ofNat (a.toNat / 2 + 128 * (a.toNat % 2)) = ⟨a.toBitVec.rotateRight 1⟩ := by
    revert a
    exact forall_byte (by decide)
  rw [Alu.rotateRight, value]
  rfl

set_option maxRecDepth 4096 in
theorem rotateLeftThroughCarry_eq (flags : Flags) (a : UInt8) :
    Alu.rotateLeftThroughCarry flags a = turnLeftThroughCarry flags a := by
  obtain ⟨s, z, ac, p, carry⟩ := flags
  have both : (UInt8.ofNat (2 * a.toNat + carry.toNat), a.toNat.testBit 7) =
      ((⟨((BitVec.cons carry a.toBitVec).rotateLeft 1).setWidth 8⟩ : UInt8),
        ((BitVec.cons carry a.toBitVec).rotateLeft 1).msb) := by
    revert a
    cases carry <;> exact forall_byte (by decide)
  obtain ⟨value, moved⟩ := Prod.mk.inj both
  simp only [Alu.rotateLeftThroughCarry, turnLeftThroughCarry, ofNineBits, nineBits, value, moved]

set_option maxRecDepth 4096 in
theorem rotateRightThroughCarry_eq (flags : Flags) (a : UInt8) :
    Alu.rotateRightThroughCarry flags a = turnRightThroughCarry flags a := by
  obtain ⟨s, z, ac, p, carry⟩ := flags
  have both : (UInt8.ofNat (a.toNat / 2 + 128 * carry.toNat), a.toNat.testBit 0) =
      ((⟨((BitVec.cons carry a.toBitVec).rotateRight 1).setWidth 8⟩ : UInt8),
        ((BitVec.cons carry a.toBitVec).rotateRight 1).msb) := by
    revert a
    cases carry <;> exact forall_byte (by decide)
  obtain ⟨value, moved⟩ := Prod.mk.inj both
  simp only [Alu.rotateRightThroughCarry, turnRightThroughCarry, ofNineBits, nineBits, value, moved]

end Intel8080.Manual
