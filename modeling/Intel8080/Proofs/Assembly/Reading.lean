import Intel8080.Proofs.Assembly.Encoding
import Intel8080.Proofs.Assembly.Layout
import Intel8080.Proofs.Execution.Disassembly

/-!
# Disassembly is unambiguous

The text of an instruction is taken apart into its words; a word after a dollar sign is a number
and stands for the operand bytes, the others spell a line of the data sheet. This gives back the
opcode and the operand bytes, so no two instructions have the same text, and what has been
disassembled can be assembled again.
-/

namespace Intel8080

namespace Opcode

/-! ## Words -/

/-- The mnemonic of an instruction and its operands. The commas only please the eye. -/
def words (text : String) : List String :=
  ((text.toList.filter (· ≠ ',')).splitOn ' ').map String.ofList

theorem filter_word {word : List Char} (absent : ',' ∉ word) : word.filter (· ≠ ',') = word :=
  List.filter_eq_self.mpr fun _ among =>
    decide_eq_true fun same => absent (same ▸ among)

theorem filter_intercalate {words : List (List Char)} (absent : ∀ word ∈ words, ',' ∉ word) :
    ([',', ' '].intercalate words).filter (· ≠ ',') = [' '].intercalate words := by
  induction words with
  | nil => rfl
  | cons word words ih =>
      have first := filter_word (absent word List.mem_cons_self)
      by_cases last : words = []
      · rw [last, List.intercalate_singleton, List.intercalate_singleton, first]
      · have later := ih fun word listed => absent word (List.mem_cons_of_mem _ listed)
        rw [List.intercalate_cons_of_ne_nil last, List.intercalate_cons_of_ne_nil last,
          List.filter_append, List.filter_append, first, later]
        rfl

namespace Entry

variable {entry : Entry} {immediate : List String} {low high : UInt8}

theorem words_layout
    (whole : ∀ word ∈ entry.mnemonic :: (entry.operands ++ immediate),
      ',' ∉ word.toList ∧ ' ' ∉ word.toList) :
    words (entry.layout immediate) = entry.mnemonic :: (entry.operands ++ immediate) := by
  have whole' : ∀ word ∈ (entry.mnemonic :: (entry.operands ++ immediate)).map String.toList,
      ',' ∉ word ∧ ' ' ∉ word := by
    intro letters listed
    obtain ⟨word, among, rfl⟩ := List.mem_map.mp listed
    exact whole word among
  have filtered : (entry.layout immediate).toList.filter (· ≠ ',') =
      [' '].intercalate ((entry.mnemonic :: (entry.operands ++ immediate)).map String.toList) := by
    rw [List.map_cons] at whole' ⊢
    have mnemonic := filter_word (whole' _ List.mem_cons_self).1
    by_cases bare : entry.operands ++ immediate = []
    · rw [layout, bare, mnemonic]
      exact List.intercalate_singleton.symm
    · have operands := filter_intercalate fun word listed =>
        (whole' word (List.mem_cons_of_mem _ listed)).1
      rw [toList_layout entry bare, List.filter_append, mnemonic,
        List.filter_cons_of_pos (by decide), operands,
        List.intercalate_cons_of_ne_nil (by simpa using bare), List.append_assoc]
      rfl
  rw [words, filtered, List.splitOn_intercalate ' ' (fun word listed => (whole' word listed).2)
    (List.cons_ne_nil _ _), List.map_map]
  simp only [Function.comp_def, String.ofList_toList, List.map_id']

end Entry

/-! ## Reading -/

def digits? (word : String) : Option (List Char) :=
  match word.toList with
  | '$' :: digits => some digits
  | _ => none

def Immediate.ofDigits (operands : List String) (digits : List Char) : Immediate :=
  if digits.length = 2 then .byte else if operands = [] then .address else .word

def Entry.sized (mnemonic : String) (operands : List String) (immediate : Immediate) : Entry :=
  ⟨1 + immediate.width, mnemonic, operands, immediate⟩

/-- The line of the data sheet that an instruction is written after, and its operand bytes as a
number, which is zero if there are none. -/
def read? (text : String) : Option (Entry × Nat) :=
  match words text with
  | [] => none
  | mnemonic :: operands =>
      let named := operands.filter fun word => (digits? word).isNone
      match operands.filterMap digits? with
      | [] => some (.sized mnemonic named .none, 0)
      | [digits] => (Hex.number? digits).map fun n =>
          (.sized mnemonic named (.ofDigits named digits), n)
      | _ => none

/-- The bytes of an instruction in memory, low byte first. -/
def assemble? (text : String) : Option (List UInt8) := do
  let (entry, operand) ← read? text
  let opcode ← entry.opcode?
  return [opcode, UInt8.ofNat operand, UInt8.ofNat (operand / 256)].take entry.length

theorem digits?_eq_none {word : String} (absent : '$' ∉ word.toList) : digits? word = none := by
  unfold digits?
  split
  · next letters => exact absurd (letters ▸ List.mem_cons_self) absent
  · rfl

theorem digits?_number (width n : Nat) :
    digits? ("$" ++ Hex.upper width n) = some (Hex.upper width n).toList := by
  rw [digits?, String.toList_append]
  rfl

section

variable {text mnemonic : String} {named : List String} {width n : Nat}

theorem read?_of_bare (taken : words text = mnemonic :: named)
    (wordy : ∀ word ∈ named, digits? word = none) :
    read? text = some (.sized mnemonic named .none, 0) := by
  have kept : named.filter (fun word => (digits? word).isNone) = named :=
    List.filter_eq_self.mpr fun word listed => Option.isNone_iff_eq_none.mpr (wordy word listed)
  rw [read?, taken]
  simp only [kept, List.filterMap_eq_nil_iff.mpr wordy]

theorem read?_of_numbered (taken : words text = mnemonic :: (named ++ ["$" ++ Hex.upper width n]))
    (wordy : ∀ word ∈ named, digits? word = none) :
    read? text =
      some (.sized mnemonic named (.ofDigits named (Hex.upper width n).toList), n) := by
  have number := digits?_number width n
  have kept : (named ++ ["$" ++ Hex.upper width n]).filter (fun word => (digits? word).isNone) =
      named := by
    rw [List.filter_append, List.filter_eq_self.mpr fun word listed =>
      Option.isNone_iff_eq_none.mpr (wordy word listed)]
    simp [number]
  have digits : (named ++ ["$" ++ Hex.upper width n]).filterMap digits? =
      [(Hex.upper width n).toList] := by
    rw [List.filterMap_append, List.filterMap_eq_nil_iff.mpr wordy]
    simp [number]
  rw [read?, taken]
  simp only [kept, digits, Hex.number?_upper, Option.map_some]

end

namespace Entry

variable {entry : Entry} {low high : UInt8}

def operand (entry : Entry) (low high : UInt8) : Nat :=
  match entry.immediate with
  | .none => 0
  | .byte => low.toNat
  | .word | .address => (joinBytes high low).toNat

theorem Plain.notMem (plain : entry.Plain) {c : Char} (special : c.isAlphanum = false) :
    ∀ word ∈ entry.mnemonic :: entry.operands, c ∉ word.toList := by
  intro word listed among
  rw [plain.alphanumeric word listed c among] at special
  cases special

theorem Plain.words_render (plain : entry.Plain) (low high : UInt8) :
    words (entry.render low high) =
      entry.mnemonic :: (entry.operands ++ entry.immediate.text low high) := by
  have spelled : ∀ c : Char, c ≠ '$' → c.isAlphanum = false →
      ∀ word ∈ entry.mnemonic :: (entry.operands ++ entry.immediate.text low high),
        c ∉ word.toList := by
    intro c other special word listed among
    rw [← List.cons_append, List.mem_append] at listed
    rcases listed with listed | listed
    · exact plain.notMem special word listed among
    · rcases mem_text listed among with dollar | letter
      · exact other dollar
      · rw [letter] at special
        cases special
  exact words_layout fun word listed =>
    ⟨spelled ',' (by decide) (by decide) word listed,
      spelled ' ' (by decide) (by decide) word listed⟩

theorem Plain.read?_render (plain : entry.Plain) (low high : UInt8) :
    read? (entry.render low high) = some (entry, entry.operand low high) := by
  have taken := plain.words_render low high
  have wordy : ∀ word ∈ entry.operands, digits? word = none := fun word listed =>
    digits?_eq_none (plain.notMem (by decide) word (List.mem_cons_of_mem _ listed))
  obtain ⟨sized, -, word, address⟩ := plain
  obtain ⟨length, mnemonic, operands, immediate⟩ := entry
  obtain rfl : length = 1 + immediate.width := sized
  cases immediate with
  | none =>
      rw [Immediate.text, List.append_nil] at taken
      exact read?_of_bare taken wordy
  | byte =>
      have kind : Immediate.ofDigits operands (Hex.byte low).toList = .byte :=
        if_pos (Hex.length_toList_byte low)
      rw [read?_of_numbered taken wordy, ← Hex.byte, kind]
      rfl
  | word =>
      have kind : Immediate.ofDigits operands (Hex.word (joinBytes high low)).toList = .word := by
        rw [Immediate.ofDigits, Hex.length_toList_word, if_neg (by decide), if_neg (word rfl)]
      rw [read?_of_numbered taken wordy, ← Hex.word, kind]
      rfl
  | address =>
      have kind : Immediate.ofDigits operands (Hex.word (joinBytes high low)).toList =
          .address := by
        rw [Immediate.ofDigits, Hex.length_toList_word, if_neg (by decide), if_pos (address rfl)]
      rw [read?_of_numbered taken wordy, ← Hex.word, kind]
      rfl

theorem Plain.take_operand (plain : entry.Plain) (opcode low high : UInt8) :
    [opcode, UInt8.ofNat (entry.operand low high),
        UInt8.ofNat (entry.operand low high / 256)].take entry.length =
      [opcode, low, high].take entry.length := by
  obtain ⟨length, mnemonic, operands, immediate⟩ := entry
  obtain rfl : length = 1 + immediate.width := plain.length
  cases immediate with
  | none => rfl
  | byte =>
      change [opcode, UInt8.ofNat low.toNat] = [opcode, low]
      rw [UInt8.ofNat_toNat]
  | word | address =>
      change [opcode, lowByte (joinBytes high low), highByte (joinBytes high low)] = _
      rw [lowByte_joinBytes, highByte_joinBytes]
      rfl

end Entry

/-- Assembling the text of an instruction gives back the opcode and the operand bytes that belong
to it. -/
theorem assemble?_render {opcode : UInt8} (defined : opcode ∉ undefined) (low high : UInt8) :
    assemble? ((entry opcode).render low high) =
      some ([opcode, low, high].take (entry opcode).length) := by
  rw [assemble?, (plain_entry opcode).read?_render]
  change (do
    let opcode ← (entry opcode).opcode?
    return [opcode, _, _].take _) = _
  rw [opcode?_entry defined]
  exact congrArg some ((plain_entry _).take_operand _ _ _)

theorem render_injective {opcode opcode' low high low' high' : UInt8}
    (defined : opcode ∉ undefined) (defined' : opcode' ∉ undefined)
    (same : (entry opcode).render low high = (entry opcode').render low' high') :
    opcode = opcode' ∧ (1 < (entry opcode).length → low = low') ∧
      (2 < (entry opcode).length → high = high') := by
  have bytes := congrArg assemble? same
  rw [assemble?_render defined, assemble?_render defined', Option.some.injEq] at bytes
  have byteAt : ∀ i < (entry opcode).length, i < (entry opcode').length →
      [opcode, low, high][i]? = [opcode', low', high'][i]? := by
    intro i inside inside'
    have at_i := congrArg (fun bytes : List UInt8 => bytes[i]?) bytes
    simpa only [List.getElem?_take, inside, inside', if_true] using at_i
  obtain rfl : opcode = opcode' :=
    Option.some.inj (byteAt 0 (length_entry_pos _) (length_entry_pos _))
  exact ⟨rfl, fun long => Option.some.inj (byteAt 1 long long),
    fun long => Option.some.inj (byteAt 2 long long)⟩

end Opcode

/-! ## Memory -/

namespace Memory

open Opcode

variable {m : Memory} {address : UInt16} {shown : Disassembly}

theorem byte?_of_read {byte : UInt8} (read : m.read address = .ok byte) :
    m.byte? address.toNat = some byte := by
  unfold Memory.read at read
  split at read
  · cases read
    exact dif_pos ‹_›
  · cases read

theorem byte?_of_readOperandIf {present : Prop} [Decidable present] {byte : UInt8}
    (read : m.readOperandIf present address = .ok byte) (given : present) :
    m.byte? address.toNat = some byte := by
  rw [readOperandIf, decide_eq_true given] at read
  exact byte?_of_read read

theorem exists_of_bind {ε α β : Type} {x : Except ε α} {f : α → Except ε β} {b : β}
    (h : x >>= f = .ok b) : ∃ a, x = .ok a ∧ f a = .ok b := by
  cases x with
  | error e => cases h
  | ok a => exact ⟨a, rfl, h⟩

theorem exists_bytes_of_disassemble (h : m.disassemble address = .ok shown) :
    ∃ opcode low high, m.byte? address.toNat = some opcode ∧
      shown = ⟨(entry opcode).render low high, (entry opcode).length⟩ ∧
      ∀ i < (entry opcode).length,
        m.byte? (address + UInt16.ofNat i).toNat = [opcode, low, high][i]? := by
  obtain ⟨opcode, first, h⟩ := exists_of_bind h
  obtain ⟨low, second, h⟩ := exists_of_bind h
  obtain ⟨high, third, h⟩ := exists_of_bind h
  cases h
  refine ⟨opcode, low, high, byte?_of_read first, rfl, fun i inside => ?_⟩
  match i with
  | 0 =>
      rw [add_ofNat_zero]
      exact byte?_of_read first
  | 1 => exact byte?_of_readOperandIf second inside
  | 2 => exact byte?_of_readOperandIf third inside
  | i + 3 =>
      have longest : (entry opcode).length ≤ 3 := length_entry_le opcode
      exact absurd inside (by omega)

end Memory

/-! ## Both ways -/

open Opcode

/-- Different instructions have different texts, up to the operand bytes that do not belong to
them, which no text shows. A text is the template with its placeholders replaced, and has none
left. Reading it gives back the bytes in memory that it has been disassembled from. -/
theorem disassembly_is_unambiguous :
    (∀ opcode opcode' low high low' high', opcode ∉ undefined → opcode' ∉ undefined →
      (entry opcode).render low high = (entry opcode').render low' high' →
      opcode = opcode' ∧ (1 < (entry opcode).length → low = low') ∧
        (2 < (entry opcode).length → high = high')) ∧
    (∀ opcode low high,
      (entry opcode).render low high = Entry.substitute low high (entry opcode).template ∧
      '\x7b' ∉ ((entry opcode).render low high).toList ∧
      '\x7d' ∉ ((entry opcode).render low high).toList) ∧
    (∀ opcode low high low' high', (1 < (entry opcode).length → low = low') →
      (2 < (entry opcode).length → high = high') →
      (entry opcode).render low high = (entry opcode).render low' high') ∧
    ∀ (m : Memory) address opcode shown, m.byte? address.toNat = some opcode →
      opcode ∉ undefined → m.disassemble address = .ok shown →
      ∃ bytes, assemble? shown.text = some bytes ∧ bytes.length = shown.length ∧
        ∀ i < shown.length, m.byte? (address + UInt16.ofNat i).toNat = bytes[i]? := by
  refine ⟨fun opcode opcode' low high low' high' => render_injective, ?_,
    fun opcode low high low' high' => render_congr, ?_⟩
  · intro opcode low high
    have plain := plain_entry opcode
    refine ⟨plain.render_eq_substitute low high, fun among => ?_, fun among => ?_⟩
    · exact absurd (plain.mem_render among) (by decide)
    · exact absurd (plain.mem_render among) (by decide)
  · intro m address opcode shown held defined h
    obtain ⟨opcode', low, high, held', rfl, stored⟩ := Memory.exists_bytes_of_disassemble h
    obtain rfl : opcode' = opcode := Option.some.inj (held'.symm.trans held)
    refine ⟨_, assemble?_render defined low high, ?_, fun i inside => ?_⟩
    · rw [List.length_take]
      exact Nat.min_eq_left (length_entry_le opcode')
    · rw [stored i inside, List.getElem?_take, if_pos inside]

/-- CP and CPI differ in one letter and in the width of their operands. -/
theorem disassembly_is_unambiguous_lookalikes :
    (entry 0xF4).render 0x12 0x00 = "CP $0012" ∧ (entry 0xFE).render 0x12 0x00 = "CPI $12" ∧
      (entry 0xF4).render 0x12 0x00 ≠ (entry 0xFE).render 0x12 0x00 ∧
      ∃ bytes, assemble? "LXI SP, $2400" = some bytes ∧ bytes.length = 3 ∧
        bytes[0]? = some 0x31 ∧ bytes[1]? = some 0x00 ∧ bytes[2]? = some 0x24 := by
  obtain ⟨injective, -, -, assembled⟩ := disassembly_is_unambiguous
  obtain ⟨bytes, read, length, stored⟩ := assembled ⟨⟨#[0x31, 0x00, 0x24]⟩⟩ 0 0x31
    ⟨"LXI SP, $2400", 3⟩ rfl (by decide) rfl
  refine ⟨rfl, rfl, fun same => ?_, bytes, read, length, ?_⟩
  · obtain ⟨alike, -⟩ := injective 0xF4 0xFE 0x12 0x00 0x12 0x00 (by decide) (by decide) same
    exact absurd alike (by decide)
  · exact ⟨(stored 0 (by decide)).symm, (stored 1 (by decide)).symm, (stored 2 (by decide)).symm⟩

end Intel8080
