import Mathlib.Data.List.Forall2
import Intel8080.Processor.Execute
import Intel8080.Proofs.Manual.Arithmetic

/-!
# Decimal addition

A byte holds two decimal digits. Bytes of two decimal numbers are added low first, each with
the carry of the place before it, and each sum is corrected to a decimal again. One place is
right unless its first correction takes the binary sum past a byte; the carry of that
correction is lost, and the sum comes out 160 too small. A sum of several places is right
exactly if this happens at none of them.
-/

namespace Intel8080

/-! ## Packed decimals -/

/-- Both halves of the byte are decimal digits. -/
def IsDecimal (byte : UInt8) : Prop :=
  byte.toNat / 16 ≤ 9 ∧ byte.toNat % 16 ≤ 9

instance : DecidablePred IsDecimal := fun byte =>
  inferInstanceAs (Decidable (byte.toNat / 16 ≤ 9 ∧ byte.toNat % 16 ≤ 9))

def decimalValue (byte : UInt8) : Nat :=
  10 * (byte.toNat / 16) + byte.toNat % 16

/-- The number that the bytes stand for, low byte first. -/
def decimalNumber : List UInt8 → Nat
  | [] => 0
  | byte :: rest => decimalValue byte + 100 * decimalNumber rest

/-- Two decimal numbers of one length, place by place. -/
abbrev DecimalOperands : List UInt8 → List UInt8 → Prop :=
  List.Forall₂ fun x y => IsDecimal x ∧ IsDecimal y

theorem decimalOperands_of_length {xs ys : List UInt8} (same : xs.length = ys.length)
    (hxs : ∀ x ∈ xs, IsDecimal x) (hys : ∀ y ∈ ys, IsDecimal y) : DecimalOperands xs ys := by
  rw [DecimalOperands, List.forall₂_iff_zip]
  refine ⟨same, fun among => ?_⟩
  obtain ⟨left, right⟩ := List.of_mem_zip among
  exact ⟨hxs _ left, hys _ right⟩

theorem decimalValue_lt {byte : UInt8} (h : IsDecimal byte) : decimalValue byte < 100 := by
  unfold IsDecimal at h
  unfold decimalValue
  omega

namespace Alu

/-! ## The corrections of a sum -/

def highSum (x y : UInt8) : Nat :=
  x.toNat / 16 + y.toNat / 16

def lowSum (x y : UInt8) (carry : Bool) : Nat :=
  x.toNat % 16 + y.toNat % 16 + carry.toNat

/-- The first correction takes the binary sum past a byte: the high digits fill their half,
and the low ones pass nine without leaving theirs. -/
def Wraps (x y : UInt8) (carry : Bool) : Prop :=
  highSum x y = 15 ∧ 10 ≤ lowSum x y carry ∧ lowSum x y carry ≤ 15

instance (x y : UInt8) (carry : Bool) : Decidable (Wraps x y carry) :=
  inferInstanceAs (Decidable (_ ∧ _ ∧ _))

variable {x y : UInt8}

theorem lowSum_le (hx : IsDecimal x) (hy : IsDecimal y) (carry : Bool) :
    lowSum x y carry ≤ 19 := by
  have small := carry.toNat_le
  unfold IsDecimal at hx hy
  unfold lowSum
  omega

theorem highSum_le (hx : IsDecimal x) (hy : IsDecimal y) : highSum x y ≤ 18 := by
  unfold IsDecimal at hx hy
  unfold highSum
  omega

theorem sum_eq (x y : UInt8) (carry : Bool) :
    x.toNat + y.toNat + carry.toNat = 16 * highSum x y + lowSum x y carry := by
  unfold highSum lowSum
  omega

theorem toNat_decimalLow_add (flags : Flags) (hx : IsDecimal x) (hy : IsDecimal y)
    (carry : Bool) :
    (Manual.decimalLow (add flags x y carry).flags.auxCarry (add flags x y carry).value).1.toNat =
      16 * ((highSum x y + lowSum x y carry / 10) % 16) + lowSum x y carry % 10 := by
  have small := lowSum_le hx hy carry
  have value : (add flags x y carry).value.toNat =
      (16 * highSum x y + lowSum x y carry) % 256 := by
    rw [← sum_eq]
    exact UInt8.toNat_ofNat'
  have half : (add flags x y carry).flags.auxCarry = decide (15 < lowSum x y carry) := rfl
  unfold Manual.decimalLow
  rw [value]
  split
  case isTrue raised =>
    rw [half, decide_eq_true_iff] at raised
    rw [UInt8.toNat_add, value]
    change (_ + 6) % 256 = _
    omega
  case isFalse digit =>
    rw [half, decide_eq_true_iff] at digit
    rw [value]
    omega

theorem decimalHigh_spec (carry : Bool) (first : UInt8) :
    (Manual.decimalHigh carry first).1.toNat =
        (if 9 < first.toNat / 16 ∨ carry then (first.toNat + 96) % 256 else first.toNat) ∧
      (Manual.decimalHigh carry first).2 = decide (9 < first.toNat / 16 ∨ carry) := by
  have bound := first.toNat_lt
  unfold Manual.decimalHigh
  split
  case isTrue raised =>
    refine ⟨?_, (decide_eq_true raised).symm⟩
    rw [UInt8.toNat_ofNat']
    omega
  case isFalse digit => exact ⟨rfl, (decide_eq_false digit).symm⟩

/-! ## One place -/

/-- An addition to the accumulator and the adjustment after it. -/
def addDecimal (op : AluOp) (flags : Flags) (x y : UInt8) : AluResult :=
  decimalAdjust (apply op flags x y).flags (apply op flags x y).value

theorem apply_add (flags : Flags) (x y : UInt8) : apply .add flags x y = add flags x y false :=
  rfl

theorem apply_adc (flags : Flags) (x y : UInt8) :
    apply .adc flags x y = add flags x y flags.carry :=
  rfl

variable {op : AluOp} {flags : Flags} {carry : Bool}

/-- The high digits with the carry of the low ones, as far as the second correction sees it. -/
def seenHigh (x y : UInt8) (carry : Bool) : Nat :=
  if Wraps x y carry then 0 else highSum x y + lowSum x y carry / 10

/-- A sum that leaves the byte tells so by its own carry, unless the first correction does it. -/
theorem raisesHigh_iff (hx : IsDecimal x) (hy : IsDecimal y) (flags : Flags) (carry : Bool) :
    (9 < (16 * ((highSum x y + lowSum x y carry / 10) % 16) + lowSum x y carry % 10) / 16 ∨
      (add flags x y carry).flags.carry) ↔ 10 ≤ seenHigh x y carry := by
  have small := lowSum_le hx hy carry
  have bound := highSum_le hx hy
  have carried : (add flags x y carry).flags.carry =
      decide (255 < 16 * highSum x y + lowSum x y carry) := by
    rw [← sum_eq]
    rfl
  rw [carried, decide_eq_true_iff]
  by_cases wraps : Wraps x y carry
  · rw [seenHigh, if_pos wraps]
    unfold Wraps at wraps
    omega
  · rw [seenHigh, if_neg wraps]
    unfold Wraps at wraps
    omega

theorem raisedHigh_eq {high low : Nat} (small : high ≤ 19) (digit : low ≤ 9) :
    (if 10 ≤ high then (16 * (high % 16) + low + 96) % 256 else 16 * (high % 16) + low) =
      16 * (high % 10) + low := by
  rcases Nat.lt_or_ge high 10 with below | above
  · rw [if_neg (Nat.not_le.mpr below), Nat.mod_eq_of_lt below, Nat.mod_eq_of_lt (by omega)]
  · have tens : high % 10 = high - 10 := by omega
    rw [if_pos above, tens]
    omega

theorem addDecimal_digits (sum : apply op flags x y = add flags x y carry) (hx : IsDecimal x)
    (hy : IsDecimal y) :
    (addDecimal op flags x y).value.toNat =
        16 * (seenHigh x y carry % 10) + lowSum x y carry % 10 ∧
      (addDecimal op flags x y).flags.carry = decide (10 ≤ seenHigh x y carry) := by
  have small := lowSum_le hx hy carry
  have bound := highSum_le hx hy
  have raised := raisesHigh_iff hx hy flags carry
  have low := toNat_decimalLow_add flags hx hy carry
  obtain ⟨value, last⟩ := decimalHigh_spec (add flags x y carry).flags.carry
    (Manual.decimalLow (add flags x y carry).flags.auxCarry (add flags x y carry).value).1
  rw [low] at value last
  rw [addDecimal, sum, Manual.decimalAdjust_eq_decimal]
  refine ⟨value.trans ?_, last.trans (decide_eq_decide.mpr raised)⟩
  rw [if_congr raised rfl rfl]
  by_cases wraps : Wraps x y carry
  · rw [seenHigh, if_pos wraps, if_neg (by omega)]
    unfold Wraps at wraps
    omega
  · rw [seenHigh, if_neg wraps]
    exact raisedHigh_eq (by omega) (by omega)

theorem isDecimal_addDecimal (sum : apply op flags x y = add flags x y carry) (hx : IsDecimal x)
    (hy : IsDecimal y) : IsDecimal (addDecimal op flags x y).value := by
  have value := (addDecimal_digits sum hx hy).1
  unfold IsDecimal
  omega

/-- One place of a decimal sum. A sum that wraps is 160 too small. -/
theorem addDecimal_balance (sum : apply op flags x y = add flags x y carry) (hx : IsDecimal x)
    (hy : IsDecimal y) :
    decimalValue (addDecimal op flags x y).value +
          100 * (addDecimal op flags x y).flags.carry.toNat +
        (if Wraps x y carry then 160 else 0) =
      decimalValue x + decimalValue y + carry.toNat := by
  have small := lowSum_le hx hy carry
  have bound := highSum_le hx hy
  have whole : decimalValue x + decimalValue y + carry.toNat =
      10 * highSum x y + lowSum x y carry := by
    unfold decimalValue highSum lowSum
    omega
  obtain ⟨value, last⟩ := addDecimal_digits sum hx hy
  rw [whole, last, decimalValue, value]
  by_cases wraps : Wraps x y carry
  · rw [seenHigh, if_pos wraps, if_pos wraps, decide_eq_false (by decide), Bool.toNat_false]
    unfold Wraps at wraps
    omega
  · rw [seenHigh, if_neg wraps, if_neg wraps]
    rcases Nat.lt_or_ge (highSum x y + lowSum x y carry / 10) 10 with below | above
    · rw [decide_eq_false (Nat.not_le.mpr below), Bool.toNat_false]
      omega
    · rw [decide_eq_true above, Bool.toNat_true]
      omega

/-- The place is exact: two digits, and the carry of the decimal sum. -/
def ExactPlace (result : AluResult) (total : Nat) : Prop :=
  decimalValue result.value = total % 100 ∧ result.flags.carry = decide (100 ≤ total)

theorem exactPlace_iff (sum : apply op flags x y = add flags x y carry) (hx : IsDecimal x)
    (hy : IsDecimal y) :
    ExactPlace (addDecimal op flags x y) (decimalValue x + decimalValue y + carry.toNat) ↔
      ¬ Wraps x y carry := by
  have balance := addDecimal_balance sum hx hy
  have small := decimalValue_lt (isDecimal_addDecimal sum hx hy)
  by_cases wraps : Wraps x y carry
  · rw [if_pos wraps] at balance
    refine iff_of_false ?_ (not_not_intro wraps)
    rintro ⟨value, last⟩
    rw [decide_eq_true (by omega)] at last
    rw [last, Bool.toNat_true] at balance
    omega
  · rw [if_neg wraps, Nat.add_zero] at balance
    refine iff_of_true ?_ wraps
    rw [← balance]
    cases last : (addDecimal op flags x y).flags.carry with
    | false => exact ⟨by simp [Nat.mod_eq_of_lt small], by simp [last, small]⟩
    | true => exact ⟨by simp [Nat.mod_eq_of_lt small], by simp [last]⟩

/-! ## Several places -/

/-- Decimal addition of bytes, low bytes first: the results, and the flags at the end. -/
def addDecimals (flags : Flags) : List UInt8 → List UInt8 → List UInt8 × Flags
  | x :: xs, y :: ys =>
      let place := addDecimal .adc flags x y
      let higher := addDecimals place.flags xs ys
      (place.value :: higher.1, higher.2)
  | _, _ => ([], flags)

/-- The same on a processor: each place is an immediate addition and an adjustment, and carry
stays in the flags between the places. -/
def performDecimals {σ : Type} : List UInt8 → List UInt8 → Exec σ (List UInt8)
  | x :: xs, y :: ys => do
      Exec.modifyRegisters fun r => { r with a := x, z := y }
      Operation.perform (.aluImmediate .adc)
      Operation.perform .daa
      let digits := (← Exec.registers).a
      let higher ← performDecimals xs ys
      return digits :: higher
  | _, _ => return []

/-- A sum wraps at some place, where the carries between the places are those of the decimal
sum. -/
def WrapsSomewhere (carry : Bool) : List UInt8 → List UInt8 → Prop
  | x :: xs, y :: ys =>
      Wraps x y carry ∨
        WrapsSomewhere (decide (100 ≤ decimalValue x + decimalValue y + carry.toNat)) xs ys
  | _, _ => False

instance decidableWrapsSomewhere : (carry : Bool) → (xs ys : List UInt8) →
    Decidable (WrapsSomewhere carry xs ys)
  | carry, x :: xs, y :: ys =>
      have := decidableWrapsSomewhere
        (decide (100 ≤ decimalValue x + decimalValue y + carry.toNat)) xs ys
      inferInstanceAs (Decidable (_ ∨ _))
  | _, [], _ => .isFalse id
  | _, _ :: _, [] => .isFalse id

/-- What the sums that wrap take from the result. -/
def lost (flags : Flags) : List UInt8 → List UInt8 → Nat
  | x :: xs, y :: ys =>
      (if Wraps x y flags.carry then 160 else 0) +
        100 * lost (addDecimal .adc flags x y).flags xs ys
  | _, _ => 0

variable {xs ys : List UInt8}

theorem performDecimals_eq {σ : Type} (operands : DecimalOperands xs ys) (p : Processor σ) :
    ∃ q, performDecimals xs ys p = .ok (addDecimals p.core.flags xs ys).1 q ∧
      q.core.flags = (addDecimals p.core.flags xs ys).2 := by
  induction operands generalizing p with
  | nil => exact ⟨p, rfl, rfl⟩
  | @cons x y xs ys _ _ ih =>
      let place := addDecimal .adc p.core.flags x y
      let next : Processor σ := { p with core := { p.core with
        registers := { p.core.registers with a := place.value, z := y }
        flags := place.flags } }
      obtain ⟨q, higher, flags⟩ := ih next
      refine ⟨q, ?_, flags⟩
      change EStateM.bind (performDecimals xs ys) (fun rest => pure (place.value :: rest)) next = _
      rw [EStateM.bind, higher]
      rfl

theorem length_addDecimals (operands : DecimalOperands xs ys) (flags : Flags) :
    (addDecimals flags xs ys).1.length = xs.length := by
  induction operands generalizing flags with
  | nil => rfl
  | cons _ _ ih => exact congrArg (· + 1) (ih _)

theorem isDecimal_addDecimals (operands : DecimalOperands xs ys) (flags : Flags) :
    ∀ byte ∈ (addDecimals flags xs ys).1, IsDecimal byte := by
  induction operands generalizing flags with
  | nil => exact fun _ among => absurd among List.not_mem_nil
  | cons decimal _ ih =>
      have place := isDecimal_addDecimal (apply_adc flags _ _) decimal.1 decimal.2
      exact List.forall_mem_cons.mpr ⟨place, ih _⟩

/-- A sum of several places, with what the wraps have taken from it. -/
theorem addDecimals_balance (operands : DecimalOperands xs ys) (flags : Flags) :
    decimalNumber (addDecimals flags xs ys).1 +
          100 ^ xs.length * (addDecimals flags xs ys).2.carry.toNat + lost flags xs ys =
      decimalNumber xs + decimalNumber ys + flags.carry.toNat := by
  induction operands generalizing flags with
  | nil => simp [addDecimals, decimalNumber, lost]
  | @cons x y xs ys decimal _ ih =>
      have place := addDecimal_balance (apply_adc flags x y) decimal.1 decimal.2
      have higher := ih (addDecimal .adc flags x y).flags
      simp only [addDecimals, decimalNumber, lost, List.length_cons, Nat.pow_succ', Nat.mul_assoc]
      omega

theorem lost_eq_zero_iff (operands : DecimalOperands xs ys) (flags : Flags) :
    lost flags xs ys = 0 ↔ ¬ WrapsSomewhere flags.carry xs ys := by
  induction operands generalizing flags with
  | nil => exact iff_of_true rfl not_false
  | @cons x y xs ys decimal _ ih =>
      rw [lost, WrapsSomewhere, not_or]
      by_cases wraps : Wraps x y flags.carry
      · rw [if_pos wraps]
        exact iff_of_false (by omega) fun none => none.1 wraps
      · have carried := ((exactPlace_iff (apply_adc flags x y) decimal.1 decimal.2).mpr wraps).2
        rw [if_neg wraps, Nat.zero_add, Nat.mul_eq_zero, or_iff_right (by decide), ih, carried]
        exact (and_iff_right wraps).symm

/-- Decimal addition gives decimals, and it is exact at any length exactly if no sum wraps. So
is the addition of two bytes, with and without the carry. -/
theorem performDecimals_exact_iff {σ : Type} (p : Processor σ) (same : xs.length = ys.length)
    (hxs : ∀ x ∈ xs, IsDecimal x) (hys : ∀ y ∈ ys, IsDecimal y) :
    (∃ digits q, performDecimals xs ys p = .ok digits q ∧ digits.length = xs.length ∧
      (∀ byte ∈ digits, IsDecimal byte) ∧
      (decimalNumber digits + 100 ^ xs.length * q.core.flags.carry.toNat =
          decimalNumber xs + decimalNumber ys + p.core.flags.carry.toNat ↔
        ¬ WrapsSomewhere p.core.flags.carry xs ys)) ∧
      ∀ flags x y, IsDecimal x → IsDecimal y →
        (ExactPlace (addDecimal .add flags x y) (decimalValue x + decimalValue y) ↔
            ¬ Wraps x y false) ∧
          (ExactPlace (addDecimal .adc flags x y)
              (decimalValue x + decimalValue y + flags.carry.toNat) ↔
            ¬ Wraps x y flags.carry) := by
  constructor
  · have operands := decimalOperands_of_length same hxs hys
    obtain ⟨q, run, flags⟩ := performDecimals_eq operands p
    refine ⟨_, q, run, length_addDecimals operands p.core.flags,
      isDecimal_addDecimals operands p.core.flags, ?_⟩
    have balance := addDecimals_balance operands p.core.flags
    rw [flags, ← lost_eq_zero_iff operands p.core.flags]
    omega
  · intro flags x y hx hy
    exact ⟨exactPlace_iff (apply_add flags x y) hx hy, exactPlace_iff (apply_adc flags x y) hx hy⟩

def bare (carry : Bool) : Processor Unit where
  core := { Core.cleared with flags := { Flags.cleared with carry } }
  memory := .zeroed 0
  ports := ⟨(), none, none⟩

/-- A carry that comes in runs through both places of 9927 and 73, and out. -/
theorem performDecimals_exact_iff_rippling :
    ∃ digits q, performDecimals [0x27, 0x99] [0x73, 0x00] (bare true) = .ok digits q ∧
      decimalNumber digits + 100 ^ 2 * q.core.flags.carry.toNat = 10001 := by
  have decimalLeft : ∀ x ∈ [0x27, 0x99], IsDecimal x :=
    List.forall_mem_cons.mpr ⟨by decide, List.forall_mem_singleton.mpr (by decide)⟩
  have decimalRight : ∀ y ∈ [0x73, 0x00], IsDecimal y :=
    List.forall_mem_cons.mpr ⟨by decide, List.forall_mem_singleton.mpr (by decide)⟩
  obtain ⟨⟨digits, q, run, -, -, whole⟩, -⟩ :=
    performDecimals_exact_iff (bare true) (by decide) decimalLeft decimalRight
  exact ⟨digits, q, run, whole.mpr (by decide)⟩

/-- The sum of 85 and 75 comes out as zero, without a carry. -/
theorem performDecimals_wrapping :
    IsDecimal 0x85 ∧ IsDecimal 0x75 ∧
      ∃ q, performDecimals [0x85] [0x75] (bare false) = .ok [0x00] q ∧
        q.core.flags.carry = false ∧
        decimalNumber [0x00] + 100 ^ 1 * q.core.flags.carry.toNat ≠
          decimalNumber [0x85] + decimalNumber [0x75] +
            (bare false).core.flags.carry.toNat := by
  refine ⟨by decide, by decide, _, rfl, rfl, ?_⟩
  decide

end Alu

end Intel8080
