import Intel8080.Proofs.Arithmetic.CarryChain

/-!
# Shifts through carry

A number of several bytes is shifted by rotating its bytes through carry one after the other.
To the left the low bytes come first and the bit of each goes into the next higher one, to the
right it is the other way around. The number and carry together keep all their bits, so either
shift takes the other one back.
-/

namespace Intel8080

def Processor.turned {σ : Type} (p : Processor σ) (a : UInt8) (carry : Bool) : Processor σ :=
  (p.setA a).mapFlags fun flags => { flags with carry }

namespace Alu

open Exec

variable {σ : Type}

/-! ## One byte -/

theorem rotatedLeft_balance (byte : UInt8) (carry : Bool) :
    (UInt8.ofNat (2 * byte.toNat + carry.toNat)).toNat +
        256 * (byte.toNat.testBit 7).toNat =
      2 * byte.toNat + carry.toNat := by
  have bound := byte.toNat_lt
  have small := carry.toNat_le
  rw [Manual.testBit_seven, UInt8.toNat_ofNat']
  by_cases high : 128 ≤ byte.toNat
  · rw [decide_eq_true high, Bool.toNat_true]
    omega
  · rw [decide_eq_false high, Bool.toNat_false]
    omega

theorem rotatedRight_balance (byte : UInt8) (carry : Bool) :
    2 * (UInt8.ofNat (byte.toNat / 2 + 128 * carry.toNat)).toNat +
        (byte.toNat.testBit 0).toNat =
      256 * carry.toNat + byte.toNat := by
  have bound := byte.toNat_lt
  have small := carry.toNat_le
  rw [Nat.toNat_testBit, UInt8.toNat_ofNat']
  omega

/-! ## Several bytes -/

/-- Each byte rotated to the left, low bytes first, and the carry at the end. -/
def shiftedLeft (carry : Bool) : List UInt8 → List UInt8 × Bool
  | [] => ([], carry)
  | byte :: higher =>
      let rest := shiftedLeft (byte.toNat.testBit 7) higher
      (UInt8.ofNat (2 * byte.toNat + carry.toNat) :: rest.1, rest.2)

/-- Each byte rotated to the right, high bytes first, and the carry at the end. -/
def shiftedRight (carry : Bool) : List UInt8 → List UInt8 × Bool
  | [] => ([], carry)
  | byte :: higher =>
      let rest := shiftedRight carry higher
      (UInt8.ofNat (byte.toNat / 2 + 128 * rest.2.toNat) :: rest.1, byte.toNat.testBit 0)

def performLeft : List UInt8 → Exec σ (List UInt8)
  | [] => return []
  | byte :: higher => do
      let low ← through byte (Operation.perform .ral)
      let rest ← performLeft higher
      return low :: rest

def performRight : List UInt8 → Exec σ (List UInt8)
  | [] => return []
  | byte :: higher => do
      let rest ← performRight higher
      let low ← through byte (Operation.perform .rar)
      return low :: rest

theorem performLeft_eq (p : Processor σ) (a : UInt8) (carry : Bool) (bytes : List UInt8) :
    ∃ a', performLeft bytes (p.turned a carry) =
      .ok (shiftedLeft carry bytes).1 (p.turned a' (shiftedLeft carry bytes).2) := by
  induction bytes generalizing a carry with
  | nil => exact ⟨a, rfl⟩
  | cons byte higher ih =>
      let low := UInt8.ofNat (2 * byte.toNat + carry.toNat)
      obtain ⟨a', rest⟩ := ih low (byte.toNat.testBit 7)
      refine ⟨a', ?_⟩
      change EStateM.bind (performLeft higher) (fun rest => pure (low :: rest))
        (p.turned low (byte.toNat.testBit 7)) = _
      rw [EStateM.bind, rest]
      rfl

theorem performRight_eq (p : Processor σ) (a : UInt8) (carry : Bool) (bytes : List UInt8) :
    ∃ a', performRight bytes (p.turned a carry) =
      .ok (shiftedRight carry bytes).1 (p.turned a' (shiftedRight carry bytes).2) := by
  induction bytes with
  | nil => exact ⟨a, rfl⟩
  | cons byte higher ih =>
      obtain ⟨a', rest⟩ := ih
      exact ⟨_, (bind_of_ok rest).trans rfl⟩

theorem length_shiftedLeft (carry : Bool) (bytes : List UInt8) :
    (shiftedLeft carry bytes).1.length = bytes.length := by
  induction bytes generalizing carry with
  | nil => rfl
  | cons _ _ ih => exact congrArg (· + 1) (ih _)

theorem length_shiftedRight (carry : Bool) (bytes : List UInt8) :
    (shiftedRight carry bytes).1.length = bytes.length := by
  induction bytes with
  | nil => rfl
  | cons _ _ ih => exact congrArg (· + 1) ih

theorem shiftedLeft_balance (carry : Bool) (bytes : List UInt8) :
    binaryNumber (shiftedLeft carry bytes).1 +
        256 ^ bytes.length * (shiftedLeft carry bytes).2.toNat =
      2 * binaryNumber bytes + carry.toNat := by
  induction bytes generalizing carry with
  | nil => simp [shiftedLeft]
  | cons byte higher ih =>
      have low := rotatedLeft_balance byte carry
      have rest := ih (byte.toNat.testBit 7)
      simp only [shiftedLeft, binaryNumber_cons, List.length_cons, Nat.pow_succ', Nat.mul_assoc]
      omega

theorem shiftedRight_balance (carry : Bool) (bytes : List UInt8) :
    2 * binaryNumber (shiftedRight carry bytes).1 + (shiftedRight carry bytes).2.toNat =
      binaryNumber bytes + 256 ^ bytes.length * carry.toNat := by
  induction bytes with
  | nil => simp [shiftedRight]
  | cons byte higher ih =>
      have low := rotatedRight_balance byte (shiftedRight carry higher).2
      simp only [shiftedRight, binaryNumber_cons, List.length_cons, Nat.pow_succ', Nat.mul_assoc]
      omega

/-! ## The bit that goes out -/

theorem shiftedLeft_lt (carry : Bool) (bytes : List UInt8) :
    binaryNumber (shiftedLeft carry bytes).1 < 256 ^ bytes.length := by
  have bound := binaryNumber_lt (shiftedLeft carry bytes).1
  rwa [length_shiftedLeft] at bound

theorem shiftedLeft_spec (carry : Bool) (bytes : List UInt8) :
    binaryNumber (shiftedLeft carry bytes).1 =
        (2 * binaryNumber bytes + carry.toNat) % 256 ^ bytes.length ∧
      ((shiftedLeft carry bytes).2 = true ↔
        256 ^ bytes.length ≤ 2 * binaryNumber bytes + carry.toNat) :=
  carry_of_balance (shiftedLeft_lt carry bytes) (shiftedLeft_balance carry bytes)

theorem binaryNumber_shiftedRight (carry : Bool) (bytes : List UInt8) :
    binaryNumber (shiftedRight carry bytes).1 =
      (carry.toNat * 256 ^ bytes.length + binaryNumber bytes) / 2 := by
  have balance := shiftedRight_balance carry bytes
  have small := (shiftedRight carry bytes).2.toNat_le
  rw [Nat.mul_comm, Nat.add_comm, ← balance]
  omega

theorem base_eq {n : Nat} (positive : 0 < n) : 256 ^ n = 2 * 2 ^ (8 * n - 1) := by
  have places : 8 * n = 8 * n - 1 + 1 := by omega
  calc
    256 ^ n = 2 ^ (8 * n) := (Nat.pow_mul 2 8 n).symm
    _ = 2 ^ (8 * n - 1 + 1) := congrArg (2 ^ ·) places
    _ = 2 * 2 ^ (8 * n - 1) := Nat.pow_succ'

theorem carry_shiftedLeft (carry : Bool) (bytes : List UInt8) :
    (shiftedLeft carry bytes).2 =
      if bytes = [] then carry else (binaryNumber bytes).testBit (8 * bytes.length - 1) := by
  by_cases empty : bytes = []
  · rw [if_pos empty, empty]
    rfl
  · have small := carry.toNat_le
    have base := base_eq (List.length_pos_iff.mpr empty)
    have whole := binaryNumber_lt bytes
    obtain ⟨-, out⟩ := shiftedLeft_spec carry bytes
    rw [if_neg empty]
    rw [base] at whole out
    rcases Nat.lt_or_ge (binaryNumber bytes) (2 ^ (8 * bytes.length - 1)) with below | above
    · rw [Nat.testBit_lt_two_pow below]
      exact Bool.eq_false_iff.mpr fun carried => absurd (out.mp carried) (by omega)
    · rw [Nat.testBit_of_two_pow_le_and_two_pow_add_one_gt above (Nat.pow_succ' ▸ whole)]
      exact out.mpr (by omega)

theorem carry_shiftedRight (carry : Bool) (bytes : List UInt8) :
    (shiftedRight carry bytes).2 =
      if bytes = [] then carry else (binaryNumber bytes).testBit 0 := by
  cases bytes with
  | nil => rfl
  | cons byte higher =>
      rw [if_neg (List.cons_ne_nil _ _), shiftedRight, binaryNumber_cons, Nat.testBit_zero,
        Nat.testBit_zero]
      exact decide_eq_decide.mpr (by omega)

/-! ## There and back -/

variable {xs ys : List UInt8} {b c : Bool}

theorem eq_of_bit_below (same : xs.length = ys.length)
    (equal : 2 * binaryNumber xs + b.toNat = 2 * binaryNumber ys + c.toNat) :
    (xs, b) = (ys, c) := by
  have bits : b = c := by
    cases b <;> cases c <;> simp only [Bool.toNat_false, Bool.toNat_true] at equal ⊢ <;> omega
  subst bits
  rw [eq_of_binaryNumber_eq same (by omega)]

theorem eq_of_bit_above (same : xs.length = ys.length)
    (equal : binaryNumber xs + 256 ^ xs.length * b.toNat =
      binaryNumber ys + 256 ^ ys.length * c.toNat) : (xs, b) = (ys, c) := by
  have left := binaryNumber_lt xs
  have right := binaryNumber_lt ys
  rw [← same] at equal right
  have bits : b = c := by
    cases b <;> cases c <;> simp only [Bool.toNat_false, Bool.toNat_true] at equal ⊢ <;> omega
  subst bits
  rw [eq_of_binaryNumber_eq same (Nat.add_right_cancel equal)]

theorem shiftedRight_of_shiftedLeft (carry : Bool) (bytes : List UInt8) :
    shiftedRight (shiftedLeft carry bytes).2 (shiftedLeft carry bytes).1 = (bytes, carry) := by
  have out := shiftedLeft_balance carry bytes
  have back := shiftedRight_balance (shiftedLeft carry bytes).2 (shiftedLeft carry bytes).1
  rw [length_shiftedLeft] at back
  exact eq_of_bit_below ((length_shiftedRight _ _).trans (length_shiftedLeft carry bytes))
    (back.trans out)

theorem shiftedLeft_of_shiftedRight (carry : Bool) (bytes : List UInt8) :
    shiftedLeft (shiftedRight carry bytes).2 (shiftedRight carry bytes).1 = (bytes, carry) := by
  have out := shiftedRight_balance carry bytes
  have back := shiftedLeft_balance (shiftedRight carry bytes).2 (shiftedRight carry bytes).1
  rw [← length_shiftedLeft (shiftedRight carry bytes).2] at back
  exact eq_of_bit_above ((length_shiftedLeft _ _).trans (length_shiftedRight carry bytes))
    (back.trans out)

/-- Shifts through carry are exact at any length: to the left the number doubles with carry
coming in below, to the right it halves with carry coming in above, and the bit that goes out
is the new carry. Each shift takes the other one back. On the way, which is a shorter shift,
only the accumulator and carry change. -/
theorem shifts_exact (p : Processor σ) (bytes : List UInt8) :
    (∃ shifted a carry, performLeft bytes p = .ok shifted (p.turned a carry) ∧
      shifted.length = bytes.length ∧
      binaryNumber shifted =
        (2 * binaryNumber bytes + p.core.flags.carry.toNat) % 256 ^ bytes.length ∧
      carry = (if bytes = [] then p.core.flags.carry
        else (binaryNumber bytes).testBit (8 * bytes.length - 1)) ∧
      ∃ a', performRight shifted (p.turned a carry) =
        .ok bytes (p.turned a' p.core.flags.carry)) ∧
    ∃ shifted a carry, performRight bytes p = .ok shifted (p.turned a carry) ∧
      shifted.length = bytes.length ∧
      binaryNumber shifted =
        (p.core.flags.carry.toNat * 256 ^ bytes.length + binaryNumber bytes) / 2 ∧
      carry = (if bytes = [] then p.core.flags.carry else (binaryNumber bytes).testBit 0) ∧
      ∃ a', performLeft shifted (p.turned a carry) =
        .ok bytes (p.turned a' p.core.flags.carry) := by
  have before : p.turned p.core.registers.a p.core.flags.carry = p := rfl
  constructor
  · obtain ⟨a, shifted⟩ := performLeft_eq p p.core.registers.a p.core.flags.carry bytes
    obtain ⟨a', back⟩ := performRight_eq p a (shiftedLeft p.core.flags.carry bytes).2
      (shiftedLeft p.core.flags.carry bytes).1
    rw [before] at shifted
    rw [shiftedRight_of_shiftedLeft] at back
    exact ⟨_, a, _, shifted, length_shiftedLeft _ bytes, (shiftedLeft_spec _ bytes).1,
      carry_shiftedLeft _ bytes, a', back⟩
  · obtain ⟨a, shifted⟩ := performRight_eq p p.core.registers.a p.core.flags.carry bytes
    obtain ⟨a', back⟩ := performLeft_eq p a (shiftedRight p.core.flags.carry bytes).2
      (shiftedRight p.core.flags.carry bytes).1
    rw [before] at shifted
    rw [shiftedLeft_of_shiftedRight] at back
    exact ⟨_, a, _, shifted, length_shiftedRight _ bytes, binaryNumber_shiftedRight _ bytes,
      carry_shiftedRight _ bytes, a', back⟩

end Alu

end Intel8080
