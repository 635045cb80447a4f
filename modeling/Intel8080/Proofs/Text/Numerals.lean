import Intel8080.Text.Decimal

/-!
# Which texts are numbers

A text reads as a number if it consists of digits, at least one and with a plus sign in front or
not, whose value stays below the bound. The value that has been read so far only grows, so a
reading that ends below the bound has never been at it.
-/

namespace Intel8080.Decimal

variable {bound value n : Nat} {c : Char} {digits : List Char} {text : String}

/-- The text is a numeral for a number below a bound. -/
def Denotes (bound : Nat) (text : String) (n : Nat) : Prop :=
  ∃ digits, (text.toList = digits ∨ text.toList = '+' :: digits) ∧ digits ≠ [] ∧
    (∀ c ∈ digits, c.isDigit = true) ∧ Nat.ofDigitChars 10 digits 0 = n ∧ n < bound

theorem le_ofDigitChars (digits : List Char) (value : Nat) :
    value ≤ Nat.ofDigitChars 10 digits value := by
  induction digits generalizing value with
  | nil => exact Nat.le_refl value
  | cons c rest ih =>
      rw [Nat.ofDigitChars_cons]
      exact Nat.le_trans (by omega) (ih _)

theorem readDigits_eq_ok_iff (below : value < bound) :
    readDigits bound value digits = .ok n ↔
      (∀ c ∈ digits, c.isDigit = true) ∧ Nat.ofDigitChars 10 digits value = n ∧ n < bound := by
  induction digits generalizing value with
  | nil =>
      simp only [readDigits, Except.ok.injEq, Nat.ofDigitChars_nil, List.not_mem_nil]
      constructor
      · rintro rfl
        exact ⟨nofun, rfl, below⟩
      · exact fun ⟨_, same, _⟩ => same
  | cons c rest ih =>
      rw [readDigits, digitValue?, Nat.ofDigitChars_cons, List.forall_mem_cons]
      by_cases digit : c.isDigit = true
      · simp only [if_pos digit]
        by_cases small : 10 * value + (c.toNat - '0'.toNat) < bound
        · rw [if_pos small, ih small]
          exact ⟨fun ⟨later, rest⟩ => ⟨⟨digit, later⟩, rest⟩,
            fun ⟨⟨_, later⟩, rest⟩ => ⟨later, rest⟩⟩
        · rw [if_neg small]
          refine iff_of_false nofun ?_
          rintro ⟨-, rfl, below⟩
          exact small (Nat.lt_of_le_of_lt (le_ofDigitChars rest _) below)
      · simp only [if_neg digit]
        exact iff_of_false nofun fun ⟨all, _⟩ => digit all.1

/-- Reading accepts the numerals below the bound. A plus sign is no digit, so it can only stand
in front. -/
theorem read_eq_ok_iff (positive : 0 < bound) :
    read bound text = .ok n ↔ Denotes bound text n := by
  rw [read, Denotes]
  split
  · next spelled =>
      rw [spelled]
      refine iff_of_false nofun ?_
      rintro ⟨digits, rfl | signed, given, -⟩
      · exact given rfl
      · cases signed
  · next spelled =>
      rw [spelled]
      refine iff_of_false nofun ?_
      rintro ⟨digits, rfl | signed, given, all, -⟩
      · exact absurd (all '+' List.mem_cons_self) (by decide)
      · cases signed
        exact given rfl
  · next digits more spelled =>
      rw [spelled, readDigits_eq_ok_iff positive]
      constructor
      · intro reads
        exact ⟨digits, .inr rfl, fun none => more (none ▸ rfl), reads⟩
      · rintro ⟨digits, rfl | signed, given, all, rest⟩
        · exact absurd (all '+' List.mem_cons_self) (by decide)
        · cases signed
          exact ⟨all, rest⟩
  · next given unsigned signed =>
      rw [readDigits_eq_ok_iff positive]
      constructor
      · intro reads
        exact ⟨_, .inl rfl, given, reads⟩
      · rintro ⟨digits, rfl | spelled, -, reads⟩
        · exact reads
        · exact absurd spelled (signed digits)

end Intel8080.Decimal
