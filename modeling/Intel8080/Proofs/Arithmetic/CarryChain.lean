import Mathlib.Data.Nat.Digits.Defs
import Intel8080.Proofs.Arithmetic.Results

/-!
# Carry chains

Numbers of several bytes are added and subtracted place by place, low bytes first, with carry
as the only link between the places. A chain of additions leaves the sum and its carry, a
chain of subtractions the difference and its borrow, whatever the length. Both follow from a
balance: what a place takes in equals what it leaves and hands on.
-/

namespace Intel8080

/-! ## Numbers of several bytes -/

/-- The number that the bytes stand for, low byte first. -/
def binaryNumber (bytes : List UInt8) : Nat :=
  Nat.ofDigits 256 (bytes.map UInt8.toNat)

@[simp] theorem binaryNumber_nil : binaryNumber [] = 0 := rfl

@[simp] theorem binaryNumber_cons (byte : UInt8) (higher : List UInt8) :
    binaryNumber (byte :: higher) = byte.toNat + 256 * binaryNumber higher :=
  rfl

theorem digit_lt (bytes : List UInt8) : ∀ digit ∈ bytes.map UInt8.toNat, digit < 256 := by
  intro digit among
  obtain ⟨byte, -, rfl⟩ := List.mem_map.mp among
  exact byte.toNat_lt

theorem binaryNumber_lt (bytes : List UInt8) : binaryNumber bytes < 256 ^ bytes.length := by
  have bound := Nat.ofDigits_lt_base_pow_length (by decide) (digit_lt bytes)
  rwa [List.length_map] at bound

theorem eq_of_binaryNumber_eq {xs ys : List UInt8} (same : xs.length = ys.length)
    (equal : binaryNumber xs = binaryNumber ys) : xs = ys := by
  have digits : xs.map UInt8.toNat = ys.map UInt8.toNat :=
    Nat.ofDigits_inj_of_len_eq (by decide) (by simpa using same) (digit_lt xs) (digit_lt ys) equal
  exact (List.map_inj_right fun _ _ => UInt8.toNat_inj.mp).mp digits

theorem carry_of_balance {value limit total : Nat} {carry : Bool} (bound : value < limit)
    (balance : value + limit * carry.toNat = total) :
    value = total % limit ∧ (carry = true ↔ limit ≤ total) := by
  rw [← balance, Nat.add_mul_mod_self_left, Nat.mod_eq_of_lt bound]
  refine ⟨rfl, ?_⟩
  cases carry with
  | false => simpa using bound
  | true => simp

/-! ## A byte through the accumulator -/

namespace Exec

variable {σ : Type}

def through (byte : UInt8) (work : Exec σ Unit) : Exec σ UInt8 := do
  modifyRegisters fun r => { r with a := byte }
  work
  return (← registers).a

def combine (op : AluOp) (operand : UInt8) : Exec σ Unit :=
  adjustAccumulator fun flags a => Alu.apply op flags a operand

end Exec

namespace Alu

open Exec

variable {σ : Type}

/-! ## One place -/

theorem add_balance (flags : Flags) (x y : UInt8) (carry : Bool) :
    (add flags x y carry).value.toNat + 256 * (add flags x y carry).flags.carry.toNat =
      x.toNat + y.toNat + carry.toNat := by
  have small := carry.toNat_le
  have smallX := x.toNat_lt
  have smallY := y.toNat_lt
  simp only [add, UInt8.toNat_ofNat']
  by_cases full : 255 < x.toNat + y.toNat + carry.toNat
  · rw [decide_eq_true full, Bool.toNat_true]
    omega
  · rw [decide_eq_false full, Bool.toNat_false]
    omega

theorem subtract_balance (flags : Flags) (x y : UInt8) (borrow : Bool) :
    (subtract flags x y borrow).value.toNat + y.toNat + borrow.toNat =
      x.toNat + 256 * (subtract flags x y borrow).flags.carry.toNat := by
  have small := borrow.toNat_le
  have smallX := x.toNat_lt
  have smallY := y.toNat_lt
  simp only [subtract, UInt8.toNat_ofNat']
  by_cases short : x.toNat < y.toNat + borrow.toNat
  · rw [decide_eq_true short, Bool.toNat_true]
    omega
  · rw [decide_eq_false short, Bool.toNat_false]
    omega

/-- Whatever its encoding, an operation combines the accumulator with its operand. -/
theorem perform_eq_combine (op : AluOp) {form : AluForm} {operand : UInt8} {p : Processor σ}
    (held : p.formOperand? form = some operand) :
    (form.operation op).perform p = combine op operand p := by
  cases form with
  | source source =>
      obtain ⟨inside, rfl⟩ := Processor.inside_of_operand? held
      have read := readOperand_eq source p
      rw [inside] at read
      exact bind_of_ok read
  | immediate =>
      obtain rfl : p.core.registers.z = operand := Option.some.inj held
      rfl

theorem shows_apply {op : AluOp} (kept : op ≠ .cmp) (flags : Flags) (x y : UInt8) :
    (apply op flags x y).flags.Shows (apply op flags x y).value := by
  have computes := Manual.computes_accumulate op flags x y
  rw [Manual.apply_eq_accumulate, computes.value, if_neg kept]
  exact computes.shows

/-! ## Chains -/

/-- Combines two numbers place by place, low bytes first: the results, and the flags at the
end. -/
def combinePlaces (op : AluOp) (flags : Flags) : List (UInt8 × UInt8) → List UInt8 × Flags
  | [] => ([], flags)
  | (x, y) :: higher =>
      let low := apply op flags x y
      let rest := combinePlaces op low.flags higher
      (low.value :: rest.1, rest.2)

/-- The same on a processor: each place goes through the accumulator, and carry stays in the
flags between the places. -/
def performPlaces (op : AluOp) : List (UInt8 × UInt8) → Exec σ (List UInt8)
  | [] => return []
  | (x, y) :: higher => do
      let low ← through x (combine op y)
      let rest ← performPlaces op higher
      return low :: rest

theorem performPlaces_eq (op : AluOp) (places : List (UInt8 × UInt8)) (p : Processor σ) :
    ∃ a, performPlaces op places p =
      .ok (combinePlaces op p.core.flags places).1
        (p.setResult ⟨a, (combinePlaces op p.core.flags places).2⟩ (.register .a)) := by
  induction places generalizing p with
  | nil => exact ⟨p.core.registers.a, rfl⟩
  | cons place higher ih =>
      let low := apply op p.core.flags place.1 place.2
      obtain ⟨a, rest⟩ := ih (p.setResult low (.register .a))
      refine ⟨a, ?_⟩
      change EStateM.bind (performPlaces op higher) (fun rest => pure (low.value :: rest))
        (p.setResult low (.register .a)) = _
      rw [EStateM.bind, rest]
      rfl

theorem length_combinePlaces (op : AluOp) (flags : Flags) (places : List (UInt8 × UInt8)) :
    (combinePlaces op flags places).1.length = places.length := by
  induction places generalizing flags with
  | nil => rfl
  | cons _ _ ih => exact congrArg (· + 1) (ih _)

theorem combinePlaces_adc_balance (flags : Flags) (places : List (UInt8 × UInt8)) :
    binaryNumber (combinePlaces .adc flags places).1 +
        256 ^ places.length * (combinePlaces .adc flags places).2.carry.toNat =
      binaryNumber (places.map Prod.fst) + binaryNumber (places.map Prod.snd) +
        flags.carry.toNat := by
  induction places generalizing flags with
  | nil => simp [combinePlaces]
  | cons place higher ih =>
      have low := add_balance flags place.1 place.2 flags.carry
      have rest := ih (apply .adc flags place.1 place.2).flags
      simp only [combinePlaces, List.map_cons, binaryNumber_cons, List.length_cons, Nat.pow_succ',
        Nat.mul_assoc]
      simp only [apply] at rest ⊢
      omega

theorem combinePlaces_sbb_balance (flags : Flags) (places : List (UInt8 × UInt8)) :
    binaryNumber (combinePlaces .sbb flags places).1 + binaryNumber (places.map Prod.snd) +
        flags.carry.toNat =
      binaryNumber (places.map Prod.fst) +
        256 ^ places.length * (combinePlaces .sbb flags places).2.carry.toNat := by
  induction places generalizing flags with
  | nil => simp [combinePlaces]
  | cons place higher ih =>
      have low := subtract_balance flags place.1 place.2 flags.carry
      have rest := ih (apply .sbb flags place.1 place.2).flags
      simp only [combinePlaces, List.map_cons, binaryNumber_cons, List.length_cons, Nat.pow_succ',
        Nat.mul_assoc]
      simp only [apply] at rest ⊢
      omega

theorem shows_combinePlaces {op : AluOp} (kept : op ≠ .cmp) {flags : Flags} {before : UInt8}
    (shows : flags.Shows before) (places : List (UInt8 × UInt8)) :
    (combinePlaces op flags places).2.Shows
      ((combinePlaces op flags places).1.getLast?.getD before) := by
  induction places generalizing flags before with
  | nil => exact shows
  | cons place higher ih =>
      have rest := ih (shows_apply kept flags place.1 place.2)
      rwa [combinePlaces, List.getLast?_cons, Option.getD_some]

theorem shows_last {op : AluOp} (kept : op ≠ .cmp) (flags : Flags)
    (places : List (UInt8 × UInt8)) {last : UInt8}
    (h : last ∈ (combinePlaces op flags places).1.getLast?) :
    (combinePlaces op flags places).2.Shows last := by
  cases places with
  | nil => cases h
  | cons place higher =>
      have rest := shows_combinePlaces kept (shows_apply kept flags place.1 place.2) higher
      rw [combinePlaces, List.getLast?_cons, Option.mem_some_iff] at h
      rwa [h] at rest

/-! ## Sums and differences -/

variable {xs ys : List UInt8}

theorem length_combined (op : AluOp) (same : xs.length = ys.length) (flags : Flags) :
    (combinePlaces op flags (xs.zip ys)).1.length = xs.length := by
  rw [length_combinePlaces, List.length_zip, ← same, Nat.min_self]

theorem combined_lt (op : AluOp) (same : xs.length = ys.length) (flags : Flags) :
    binaryNumber (combinePlaces op flags (xs.zip ys)).1 < 256 ^ xs.length := by
  have bound := binaryNumber_lt (combinePlaces op flags (xs.zip ys)).1
  rwa [length_combined op same] at bound

theorem sum_balance (same : xs.length = ys.length) (flags : Flags) :
    binaryNumber (combinePlaces .adc flags (xs.zip ys)).1 +
        256 ^ xs.length * (combinePlaces .adc flags (xs.zip ys)).2.carry.toNat =
      binaryNumber xs + binaryNumber ys + flags.carry.toNat := by
  have balance := combinePlaces_adc_balance flags (xs.zip ys)
  rwa [List.length_zip, ← same, Nat.min_self, List.map_fst_zip same.le,
    List.map_snd_zip same.ge] at balance

theorem difference_balance (same : xs.length = ys.length) (flags : Flags) :
    binaryNumber (combinePlaces .sbb flags (xs.zip ys)).1 + binaryNumber ys +
        flags.carry.toNat =
      binaryNumber xs +
        256 ^ xs.length * (combinePlaces .sbb flags (xs.zip ys)).2.carry.toNat := by
  have balance := combinePlaces_sbb_balance flags (xs.zip ys)
  rwa [List.length_zip, ← same, Nat.min_self, List.map_fst_zip same.le,
    List.map_snd_zip same.ge] at balance

theorem sum_spec (same : xs.length = ys.length) (flags : Flags) :
    binaryNumber (combinePlaces .adc flags (xs.zip ys)).1 =
        (binaryNumber xs + binaryNumber ys + flags.carry.toNat) % 256 ^ xs.length ∧
      ((combinePlaces .adc flags (xs.zip ys)).2.carry = true ↔
        256 ^ xs.length ≤ binaryNumber xs + binaryNumber ys + flags.carry.toNat) :=
  carry_of_balance (combined_lt .adc same flags) (sum_balance same flags)

theorem difference_spec (same : xs.length = ys.length) (flags : Flags) :
    (binaryNumber (combinePlaces .sbb flags (xs.zip ys)).1 : Int) =
        (binaryNumber xs - binaryNumber ys - flags.carry.toNat) % 256 ^ xs.length ∧
      ((combinePlaces .sbb flags (xs.zip ys)).2.carry = true ↔
        binaryNumber xs < binaryNumber ys + flags.carry.toNat) := by
  have bound := combined_lt .sbb same flags
  have balance := difference_balance same flags
  have power : (256 : Int) ^ xs.length = ((256 ^ xs.length : Nat) : Int) := by push_cast; rfl
  rw [power]
  generalize 256 ^ xs.length = base at bound balance ⊢
  cases borrowed : (combinePlaces .sbb flags (xs.zip ys)).2.carry with
  | false =>
      rw [borrowed, Bool.toNat_false, Nat.mul_zero] at balance
      have whole : (binaryNumber xs - binaryNumber ys - flags.carry.toNat : Int) =
          binaryNumber (combinePlaces .sbb flags (xs.zip ys)).1 := by omega
      rw [whole, Int.emod_eq_of_lt (by omega) (by omega)]
      exact ⟨rfl, iff_of_false Bool.false_ne_true (by omega)⟩
  | true =>
      rw [borrowed, Bool.toNat_true, Nat.mul_one] at balance
      have whole : (binaryNumber xs - binaryNumber ys - flags.carry.toNat : Int) =
          binaryNumber (combinePlaces .sbb flags (xs.zip ys)).1 - base := by omega
      rw [whole, Int.sub_emod_right, Int.emod_eq_of_lt (by omega) (by omega)]
      exact ⟨rfl, iff_of_true rfl (by omega)⟩

theorem difference_of_sum (same : xs.length = ys.length) {before between : Flags}
    (clear : before.carry = false) (cleared : between.carry = false) :
    (combinePlaces .sbb between ((combinePlaces .adc before (xs.zip ys)).1.zip ys)).1 = xs := by
  have length := length_combined .adc same before
  have alike := length.trans same
  have sum := sum_balance same before
  have difference := difference_balance alike between
  have left := combined_lt .sbb alike between
  have whole := binaryNumber_lt xs
  rw [length] at difference left
  rw [clear] at sum
  rw [cleared] at difference
  refine eq_of_binaryNumber_eq ((length_combined .sbb alike between).trans length) ?_
  generalize 256 ^ xs.length = base at sum difference left whole
  cases carried : (combinePlaces .adc before (xs.zip ys)).2.carry <;>
    cases borrowed :
      (combinePlaces .sbb between ((combinePlaces .adc before (xs.zip ys)).1.zip ys)).2.carry <;>
    simp only [carried, borrowed, Bool.toNat_false, Bool.toNat_true, Nat.mul_zero,
      Nat.mul_one] at sum difference <;>
    omega

/-- Chains of additions and of subtractions are exact at any length, with the last carry or
borrow of the whole numbers and the other flags of the last byte, and a subtraction undoes an
addition. A comparison sets the flags of a subtraction and keeps the accumulator. The places
may use any encoding. -/
theorem chains_exact (p : Processor σ) (same : xs.length = ys.length) :
    (∃ sum q, performPlaces .adc (xs.zip ys) p = .ok sum q ∧ sum.length = xs.length ∧
      binaryNumber sum =
        (binaryNumber xs + binaryNumber ys + p.core.flags.carry.toNat) % 256 ^ xs.length ∧
      (q.core.flags.carry = true ↔
        256 ^ xs.length ≤ binaryNumber xs + binaryNumber ys + p.core.flags.carry.toNat) ∧
      (∀ last ∈ sum.getLast?, q.core.flags.Shows last) ∧
      ∀ r : Processor σ, p.core.flags.carry = false → r.core.flags.carry = false →
        ∃ s, performPlaces .sbb (sum.zip ys) r = .ok xs s) ∧
    (∃ difference q, performPlaces .sbb (xs.zip ys) p = .ok difference q ∧
      difference.length = xs.length ∧
      (binaryNumber difference : Int) =
        (binaryNumber xs - binaryNumber ys - p.core.flags.carry.toNat) % 256 ^ xs.length ∧
      (q.core.flags.carry = true ↔
        binaryNumber xs < binaryNumber ys + p.core.flags.carry.toNat) ∧
      ∀ last ∈ difference.getLast?, q.core.flags.Shows last) ∧
    (∀ operand, ∃ compared subtracted, combine .cmp operand p = .ok () compared ∧
      combine .sub operand p = .ok () subtracted ∧
      compared.core.flags = subtracted.core.flags ∧
      compared.core.registers.a = p.core.registers.a) ∧
    ∀ op form operand, p.formOperand? form = some operand →
      (AluForm.operation op form).perform p = combine op operand p := by
  refine ⟨?_, ?_, fun operand => ⟨_, _, rfl, rfl, rfl, rfl⟩,
    fun op _ _ held => perform_eq_combine op held⟩
  · obtain ⟨a, added⟩ := performPlaces_eq .adc (xs.zip ys) p
    obtain ⟨number, carried⟩ := sum_spec same p.core.flags
    refine ⟨_, _, added, length_combined .adc same _, number, carried,
      fun last among => shows_last (by decide) _ _ among, ?_⟩
    intro r clear cleared
    obtain ⟨b, restored⟩ := performPlaces_eq .sbb
      ((combinePlaces .adc p.core.flags (xs.zip ys)).1.zip ys) r
    rw [difference_of_sum same clear cleared] at restored
    exact ⟨_, restored⟩
  · obtain ⟨a, subtracted⟩ := performPlaces_eq .sbb (xs.zip ys) p
    obtain ⟨number, borrowed⟩ := difference_spec same p.core.flags
    exact ⟨_, _, subtracted, length_combined .sbb same _, number, borrowed,
      fun last among => shows_last (by decide) _ _ among⟩

def idle : Processor Unit :=
  .new (.zeroed 0) ⟨(), none, none⟩

/-- The carry of FFFF and 00FF runs through a byte of ones, and the borrow takes it back. -/
theorem chains_exact_rippling :
    ∃ sum q, performPlaces .adc [(0xFF, 0xFF), (0xFF, 0x00)] idle = .ok sum q ∧
      binaryNumber sum = 0x00FE ∧ q.core.flags.carry = true ∧
      (∃ s, performPlaces .sbb (sum.zip [0xFF, 0x00]) idle = .ok [0xFF, 0xFF] s) ∧
      Operation.perform (.alu .adc (.register .a)) idle = combine .adc 0x00 idle := by
  have same : [(0xFF : UInt8), 0xFF].length = [(0xFF : UInt8), 0x00].length := rfl
  obtain ⟨⟨sum, q, added, -, number, carried, -, restores⟩, -, -, encoded⟩ :=
    chains_exact idle same
  exact ⟨sum, q, added, number.trans (by decide), carried.mpr (by decide),
    restores idle rfl rfl, encoded .adc (.source (.register .a)) 0x00 rfl⟩

end Alu

end Intel8080
