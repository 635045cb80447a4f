import Intel8080.Opcode.Listing
import Intel8080.Proofs.Text.Hexadecimal

/-!
# The text of an instruction

Every line of the data sheet is spelled in letters and digits, so the blanks, commas, dollar
signs and braces in the text of an instruction have each their own use. In particular filling in
the operand bytes comes to replacing the placeholders one after the other: there is at most one
of them, no replacement makes another, and none is left.
-/

namespace Intel8080

/-! ## Replacing -/

/-- Replaces each occurrence of a pattern, from left to right. The first `skip` characters belong
to an occurrence that has been replaced already. -/
def replaceFrom (pattern replacement : List Char) : Nat → List Char → List Char
  | _, [] => []
  | skip + 1, _ :: rest => replaceFrom pattern replacement skip rest
  | 0, c :: rest =>
      if pattern.isPrefixOf (c :: rest) then
        replacement ++ replaceFrom pattern replacement (pattern.length - 1) rest
      else c :: replaceFrom pattern replacement 0 rest

def replaceAll (pattern replacement text : String) : String :=
  String.ofList (replaceFrom pattern.toList replacement.toList 0 text.toList)

theorem replaceFrom_append {first : Char} {more replacement stem rest : List Char}
    (absent : first ∉ stem) :
    replaceFrom (first :: more) replacement 0 (stem ++ rest) =
      stem ++ replaceFrom (first :: more) replacement 0 rest := by
  induction stem with
  | nil => rfl
  | cons c stem ih =>
      have differs : (first == c) = false :=
        beq_eq_false_iff_ne.mpr fun same => absent (same ▸ List.mem_cons_self)
      rw [List.cons_append, replaceFrom, List.isPrefixOf, differs, Bool.false_and,
        if_neg Bool.false_ne_true, ih fun among => absent (List.mem_cons_of_mem c among),
        List.cons_append]

theorem replaceAll_of_notMem {pattern replacement text : String} {first : Char}
    {more : List Char} (starts : pattern.toList = first :: more) (absent : first ∉ text.toList) :
    replaceAll pattern replacement text = text := by
  have passed : replaceFrom (first :: more) replacement.toList 0 (text.toList ++ []) =
      text.toList ++ [] := replaceFrom_append absent
  rw [List.append_nil] at passed
  rw [replaceAll, starts, passed, String.ofList_toList]

theorem replaceFrom_length (pattern replacement text : List Char) :
    replaceFrom pattern replacement text.length text = [] := by
  induction text with
  | nil => rfl
  | cons c text ih => exact ih

theorem replaceAll_self {pattern replacement : String} {first : Char} {more : List Char}
    (starts : pattern.toList = first :: more) :
    replaceAll pattern replacement pattern = replacement := by
  have found : (first :: more).isPrefixOf (first :: more) = true :=
    List.isPrefixOf_iff_prefix.mpr List.prefix_rfl
  rw [replaceAll, starts, replaceFrom, if_pos found, List.length_cons, Nat.add_sub_cancel,
    replaceFrom_length, List.append_nil, String.ofList_toList]

namespace Opcode

/-! ## Spelling -/

/-- A line of the sheet that is spelled in letters and digits and leaves room for its operand
bytes. A data word comes with operands that the opcode names, an address without. -/
structure Entry.Plain (entry : Entry) : Prop where
  length : entry.length = 1 + entry.immediate.width
  alphanumeric : ∀ word ∈ entry.mnemonic :: entry.operands, ∀ c ∈ word.toList,
    c.isAlphanum = true
  word : entry.immediate = .word → entry.operands ≠ []
  address : entry.immediate = .address → entry.operands = []

private theorem plain_table : listing.toList.all fun entry =>
    ((entry.mnemonic :: entry.operands).all fun word => word.toList.all Char.isAlphanum) &&
      match entry.immediate with
      | .word => !entry.operands.isEmpty
      | .address => entry.operands.isEmpty
      | _ => true := by
  decide +kernel

theorem plain_entry (opcode : UInt8) : (entry opcode).Plain := by
  have listed : entry opcode ∈ listing.toList := Array.getElem_mem_toList _
  have line := List.all_eq_true.mp plain_table _ listed
  rw [Bool.and_eq_true, List.all_eq_true] at line
  obtain ⟨alphanumeric, kind⟩ := line
  constructor
  case length => exact length_entry opcode
  case alphanumeric => exact fun word given => List.all_eq_true.mp (alphanumeric word given)
  case word =>
    intro word
    simpa [word] using kind
  case address =>
    intro address
    simpa [address] using kind

namespace Entry

variable {entry : Entry} {c : Char}

/-! ## Layout -/

theorem toList_layout (entry : Entry) {immediate : List String}
    (given : entry.operands ++ immediate ≠ []) :
    (entry.layout immediate).toList = entry.mnemonic.toList ++ ' ' ::
      [',', ' '].intercalate ((entry.operands ++ immediate).map String.toList) := by
  unfold layout
  split
  · exact absurd ‹_› given
  · rw [String.toList_append, String.toList_append, String.toList_intercalate, List.append_assoc]
    rfl

theorem mem_intercalate {separator : List Char} {words : List (List Char)}
    (among : c ∈ separator.intercalate words) : c ∈ separator ∨ ∃ word ∈ words, c ∈ word := by
  induction words with
  | nil => exact absurd among List.not_mem_nil
  | cons word words ih =>
      by_cases last : words = []
      · subst last
        rw [List.intercalate_singleton] at among
        exact .inr ⟨word, List.mem_cons_self, among⟩
      · rw [List.intercalate_cons_of_ne_nil last, List.mem_append, List.mem_append] at among
        rcases among with (among | among) | among
        · exact .inr ⟨word, List.mem_cons_self, among⟩
        · exact .inl among
        · refine (ih among).imp_right ?_
          rintro ⟨later, listed, among⟩
          exact ⟨later, List.mem_cons_of_mem word listed, among⟩

theorem Plain.mem_layout (plain : entry.Plain) {immediate : List String}
    (among : c ∈ (entry.layout immediate).toList) :
    c ∈ [',', ' '] ∨ c.isAlphanum = true ∨ ∃ word ∈ immediate, c ∈ word.toList := by
  by_cases bare : entry.operands ++ immediate = []
  · rw [layout, bare] at among
    exact .inr (.inl (plain.alphanumeric entry.mnemonic List.mem_cons_self c among))
  · rw [toList_layout entry bare, List.mem_append, List.mem_cons] at among
    rcases among with among | rfl | among
    · exact .inr (.inl (plain.alphanumeric entry.mnemonic List.mem_cons_self c among))
    · exact .inl (by decide)
    · rcases mem_intercalate among with between | ⟨letters, listed, among⟩
      · exact .inl between
      · obtain ⟨word, operand, rfl⟩ := List.mem_map.mp listed
        rcases List.mem_append.mp operand with named | given
        · exact .inr (.inl (plain.alphanumeric word (List.mem_cons_of_mem _ named) c among))
        · exact .inr (.inr ⟨word, given, among⟩)

theorem Plain.brace_notMem_layout (plain : entry.Plain) {immediate : List String}
    (absent : ∀ word ∈ immediate, '\x7b' ∉ word.toList) :
    '\x7b' ∉ (entry.layout immediate).toList := by
  intro among
  rcases plain.mem_layout among with between | letter | ⟨word, listed, among⟩
  · exact absurd between (by decide)
  · exact absurd letter (by decide)
  · exact absent word listed among

theorem intercalate_concat (separator : List Char) (words : List (List Char)) (last : List Char) :
    separator.intercalate (words ++ [last]) =
      (words.flatMap fun word => word ++ separator) ++ last := by
  induction words with
  | nil => exact List.intercalate_singleton
  | cons word words ih =>
      rw [List.cons_append, List.intercalate_cons_of_ne_nil (by simp), ih, List.flatMap_cons,
        List.append_assoc (word ++ separator)]

def lead (entry : Entry) : List Char :=
  entry.mnemonic.toList ++ ' ' ::
    (entry.operands.map String.toList).flatMap fun word => word ++ [',', ' ']

theorem toList_layout_singleton (entry : Entry) (last : String) :
    (entry.layout [last]).toList = entry.lead ++ last.toList := by
  rw [toList_layout entry (by simp), List.map_append, List.map_singleton, intercalate_concat,
    lead, List.append_assoc, List.cons_append]

theorem Plain.brace_notMem_lead (plain : entry.Plain) : '\x7b' ∉ entry.lead := by
  intro among
  have absent : '\x7b' ∉ (entry.layout [""]).toList :=
    plain.brace_notMem_layout fun word listed => by
      rw [List.mem_singleton.mp listed]
      exact List.not_mem_nil
  exact absent (toList_layout_singleton entry "" ▸ List.mem_append_left _ among)

/-! ## Placeholders -/

/-- Replacing the placeholders of the operand bytes, one kind after the other. -/
def substitute (low high : UInt8) (template : String) : String :=
  let word := "$" ++ Hex.word (joinBytes high low)
  replaceAll "\x7baddr\x7d" word
    (replaceAll "\x7bd16\x7d" word (replaceAll "\x7bd8\x7d" ("$" ++ Hex.byte low) template))

private theorem byteStarts : "\x7bd8\x7d".toList = '\x7b' :: ['d', '8', '\x7d'] :=
  rfl

private theorem wordStarts : "\x7bd16\x7d".toList = '\x7b' :: ['d', '1', '6', '\x7d'] :=
  rfl

private theorem addressStarts :
    "\x7baddr\x7d".toList = '\x7b' :: ['a', 'd', 'd', 'r', '\x7d'] :=
  rfl

variable {low high : UInt8} {immediate : Immediate}

theorem Plain.replaceAll_layout (plain : entry.Plain) {pattern : String} {more : List Char}
    (starts : pattern.toList = '\x7b' :: more) (replacement last : String) :
    replaceAll pattern replacement (entry.layout [last]) =
      entry.layout [replaceAll pattern replacement last] := by
  rw [← String.toList_inj, toList_layout_singleton, replaceAll, replaceAll, starts,
    toList_layout_singleton, replaceFrom_append plain.brace_notMem_lead, String.toList_ofList,
    String.toList_ofList]

theorem mem_text {word : String} (listed : word ∈ immediate.text low high)
    (among : c ∈ word.toList) : c = '$' ∨ c.isAlphanum = true := by
  have digits : ∀ {width n : Nat}, c ∈ ("$" ++ Hex.upper width n).toList →
      c = '$' ∨ c.isAlphanum = true := by
    intro width n among
    rw [String.toList_append, List.mem_append] at among
    refine among.imp List.mem_singleton.mp fun among => ?_
    have table : Hex.alphabet.all Char.isAlphanum = true := rfl
    exact List.all_eq_true.mp table c (Hex.mem_alphabet_of_mem_upper among)
  cases immediate with
  | none => exact absurd listed List.not_mem_nil
  | byte | word | address =>
      obtain rfl := List.mem_singleton.mp listed
      exact digits among

theorem Plain.mem_render (plain : entry.Plain) (among : c ∈ (entry.render low high).toList) :
    c ∈ [',', ' ', '$'] ∨ c.isAlphanum = true := by
  rcases plain.mem_layout among with between | letter | ⟨word, listed, among⟩
  · exact .inl (List.mem_append_left ['$'] between)
  · exact .inr letter
  · rcases mem_text listed among with rfl | letter
    · exact .inl (by decide)
    · exact .inr letter

theorem Plain.substitute_layout (plain : entry.Plain) (immediate : Immediate) :
    substitute low high (entry.layout immediate.placeholder) =
      entry.layout (immediate.placeholder.map (substitute low high)) := by
  cases immediate with
  | none =>
      have absent : '\x7b' ∉ (entry.layout []).toList :=
        plain.brace_notMem_layout fun word listed => absurd listed List.not_mem_nil
      change substitute low high (entry.layout []) = entry.layout []
      rw [substitute, replaceAll_of_notMem byteStarts absent,
        replaceAll_of_notMem wordStarts absent, replaceAll_of_notMem addressStarts absent]
  | byte | word | address =>
      rw [Immediate.placeholder, substitute, plain.replaceAll_layout byteStarts,
        plain.replaceAll_layout wordStarts, plain.replaceAll_layout addressStarts]
      rfl

/-- Each placeholder is replaced once: the text put in its place has no brace. -/
theorem map_substitute_placeholder (immediate : Immediate) :
    immediate.placeholder.map (substitute low high) = immediate.text low high := by
  have braceless : ∀ text ∈ immediate.text low high, '\x7b' ∉ text.toList := by
    intro text listed among
    rcases mem_text listed among with dollar | letter
    · exact absurd dollar (by decide)
    · exact absurd letter (by decide)
  cases immediate with
  | none => rfl
  | byte =>
      have absent := braceless _ List.mem_cons_self
      rw [Immediate.placeholder, List.map_singleton, substitute, replaceAll_self byteStarts,
        replaceAll_of_notMem wordStarts absent, replaceAll_of_notMem addressStarts absent]
      rfl
  | word =>
      have absent := braceless _ List.mem_cons_self
      have passed : ∀ replacement, replaceAll "\x7bd8\x7d" replacement "\x7bd16\x7d" =
          "\x7bd16\x7d" := fun replacement => rfl
      rw [Immediate.placeholder, List.map_singleton, substitute, passed,
        replaceAll_self wordStarts, replaceAll_of_notMem addressStarts absent]
      rfl
  | address =>
      have passed : ∀ replacement, replaceAll "\x7bd8\x7d" replacement "\x7baddr\x7d" =
          "\x7baddr\x7d" := fun replacement => rfl
      have passedTwice : ∀ replacement, replaceAll "\x7bd16\x7d" replacement "\x7baddr\x7d" =
          "\x7baddr\x7d" := fun replacement => rfl
      rw [Immediate.placeholder, List.map_singleton, substitute, passed, passedTwice,
        replaceAll_self addressStarts]
      rfl

/-- Writing out the operand bytes is replacing the placeholder in the template. -/
theorem Plain.render_eq_substitute (plain : entry.Plain) (low high : UInt8) :
    entry.render low high = substitute low high entry.template := by
  rw [template, plain.substitute_layout, map_substitute_placeholder, render]

end Entry

end Opcode

end Intel8080
