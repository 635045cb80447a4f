import Intel8080.Text.Hex

/-!
# Reading hexadecimal numbers

A number reads back from its digits, whatever they were padded to, and a byte or a word always
takes the same number of digits. So a text in digits determines the number it was made of, and
nothing but digits occurs in it.
-/

namespace Intel8080.Hex

def alphabet : List Char :=
  ['0', '1', '2', '3', '4', '5', '6', '7', '8', '9', 'A', 'B', 'C', 'D', 'E', 'F']

def appendDigit? (value : Nat) (c : Char) : Option Nat :=
  (alphabet.idxOf? c).map fun digit => 16 * value + digit

def number? (text : List Char) : Option Nat :=
  text.foldlM appendDigit? 0

variable {width n d : Nat}

/-! ## Reading back -/

theorem appendDigit?_digitChar (value : Nat) (small : d < 16) :
    appendDigit? value d.digitChar.toUpper = some (16 * value + d) := by
  have table : ∀ d : Fin 16, alphabet.idxOf? (Nat.digitChar d).toUpper = some d.val := by
    decide
  rw [appendDigit?, table ⟨d, small⟩]
  rfl

theorem number?_replicate_append (count : Nat) (text : List Char) :
    number? (List.replicate count '0' ++ text) = number? text := by
  induction count with
  | zero => rfl
  | succ count ih =>
      rw [List.replicate_succ, List.cons_append, ← ih]
      rfl

theorem number?_append_digitChar {text : List Char} (read : number? text = some n)
    (small : d < 16) : number? (text ++ [d.digitChar.toUpper]) = some (16 * n + d) := by
  have appended := appendDigit?_digitChar n small
  rw [number?] at read
  simp only [number?, List.foldlM_append, read, Option.bind_eq_bind, Option.bind_some,
    List.foldlM_cons, appended, List.foldlM_nil, Option.pure_def]

theorem number?_toDigits (n : Nat) :
    number? ((Nat.toDigits 16 n).map Char.toUpper) = some n := by
  induction n using Nat.strongRecOn with
  | ind n ih =>
      rcases Nat.lt_or_ge n 16 with small | large
      · rw [Nat.toDigits_of_lt_base small]
        have read := number?_append_digitChar (show number? [] = some 0 from rfl) small
        rwa [Nat.mul_zero, Nat.zero_add] at read
      · have last : n % 16 < 16 := Nat.mod_lt n (by decide)
        have split := Nat.toDigits_append_toDigits (by decide : 1 < 16)
          (show 0 < n / 16 by omega) last
        rw [Nat.div_add_mod, Nat.toDigits_of_lt_base last] at split
        have read := number?_append_digitChar (ih (n / 16) (by omega)) last
        rwa [Nat.div_add_mod, ← List.map_singleton, ← List.map_append, split] at read

theorem number?_upper (width n : Nat) : number? (upper width n).toList = some n := by
  rw [upper, String.toList_ofList, digits, List.leftpad, List.map_append, List.map_replicate]
  exact (number?_replicate_append _ _).trans (number?_toDigits n)

theorem upper_injective {m : Nat} (same : upper width m = upper width n) : m = n := by
  have read := congrArg (fun text => number? text.toList) same
  simpa only [number?_upper, Option.some.injEq] using read

theorem word_injective {x y : UInt16} (same : word x = word y) : x = y :=
  UInt16.toNat_inj.mp (upper_injective same)

/-! ## Length -/

theorem length_toList_upper (fits : (Nat.toDigits 16 n).length ≤ width) :
    (upper width n).toList.length = width := by
  rw [upper, String.toList_ofList, List.length_map, digits, List.length_leftpad,
    Nat.max_eq_left fits]

theorem length_toList_byte (x : UInt8) : (byte x).toList.length = 2 := by
  have small : x.toNat < 256 := x.toNat_lt
  exact length_toList_upper ((Nat.length_toDigits_le_iff (by decide) (by decide)).mpr small)

theorem length_toList_word (x : UInt16) : (word x).toList.length = 4 := by
  have small : x.toNat < 65536 := x.toNat_lt
  exact length_toList_upper ((Nat.length_toDigits_le_iff (by decide) (by decide)).mpr small)

/-! ## Alphabet -/

theorem mem_alphabet_of_foldlM {text : List Char} {value : Nat}
    (read : text.foldlM appendDigit? value = some n) : ∀ c ∈ text, c ∈ alphabet := by
  induction text generalizing value with
  | nil => exact fun c among => absurd among List.not_mem_nil
  | cons first rest ih =>
      rw [List.foldlM_cons] at read
      obtain ⟨next, appended, later⟩ := Option.bind_eq_some_iff.mp read
      intro c among
      rcases List.mem_cons.mp among with rfl | among
      · by_cases known : c ∈ alphabet
        · exact known
        · rw [appendDigit?, List.idxOf?_eq_none_iff.mpr known] at appended
          cases appended
      · exact ih later c among

theorem mem_alphabet_of_mem_upper {c : Char} (among : c ∈ (upper width n).toList) :
    c ∈ alphabet :=
  mem_alphabet_of_foldlM (number?_upper width n) c among

end Intel8080.Hex
