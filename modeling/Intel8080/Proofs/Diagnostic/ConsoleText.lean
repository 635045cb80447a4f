import Mathlib.Data.Nat.Find
import Intel8080.Proofs.Diagnostic.Iteration

/-!
# What the console prints

A console call prints the text at DE plus an offset, the character in E, or nothing. A text
reaches up to the first terminator at or after its start, wherever in memory that is: addresses
do not wrap, and they do not end at 64 KiB either. Without a terminator there is no text.
-/

namespace Intel8080

namespace Diagnostic

/-! ## Texts in memory -/

/-- The text ends at `stop`, where the first terminator at or after `start` lies. -/
structure EndsAt (memory : Memory) (start stop : Nat) : Prop where
  le : start ≤ stop
  held : memory.byte? stop = some terminator
  first : ∀ i, start ≤ i → i < stop → memory.byte? i ≠ some terminator

/-- The characters of a text have the bytes from `start` up to but not including `stop` as their
code points, in order. -/
def Shows (memory : Memory) (text : String) (start stop : Nat) : Prop :=
  text.toList.map (fun character => some character.toNat) =
    (List.range' start (stop - start)).map fun i => (memory.byte? i).map UInt8.toNat

variable {memory : Memory} {text : String} {start stop count : Nat}

theorem toNat_characterOf (byte : UInt8) : (characterOf byte).toNat = byte.toNat := by
  have small := byte.toNat_lt
  have valid : byte.toNat.isValidChar := .inl (by omega)
  rw [characterOf, Char.ofNat, dif_pos valid]
  rfl

theorem EndsAt.inside (ends : EndsAt memory start stop) : stop < memory.capacity :=
  Memory.lt_of_byte? ends.held

theorem shows_empty (memory : Memory) (start : Nat) : Shows memory "" start start := by
  rw [Shows, Nat.sub_self]
  rfl

theorem Shows.cons {byte : UInt8} (shows : Shows memory text (start + 1) stop)
    (held : memory.byte? start = some byte) (before : start < stop) :
    Shows memory (String.singleton (characterOf byte) ++ text) start stop := by
  have length : stop - start = stop - (start + 1) + 1 := by omega
  rw [Shows, String.toList_append, String.toList_singleton, List.map_append, shows, length]
  simp only [List.range'_succ, List.map_cons, held, toNat_characterOf, Option.map_some,
    List.map_nil, List.cons_append, List.nil_append]

/-! ## Looking for the terminator -/

theorem textUpTo_of_terminator (text : String) (held : memory.byte? start = some terminator) :
    textUpTo memory text (count + 1) start = some text := by
  simp only [textUpTo, held, if_pos]

theorem textUpTo_of_byte {byte : UInt8} (text : String) (held : memory.byte? start = some byte)
    (other : byte ≠ terminator) :
    textUpTo memory text (count + 1) start =
      textUpTo memory (text.push (characterOf byte)) count (start + 1) := by
  simp only [textUpTo, held, if_neg other]

theorem textUpTo_of_endsAt (count : Nat) (text : String) (ends : EndsAt memory start stop)
    (enough : stop - start < count) :
    ∃ printed, textUpTo memory text count start = some (text ++ printed) ∧
      Shows memory printed start stop := by
  induction count generalizing start text with
  | zero => exact absurd enough (Nat.not_lt_zero _)
  | succ count ih =>
      rcases Nat.eq_or_lt_of_le ends.le with here | before
      · subst here
        refine ⟨"", ?_, shows_empty memory start⟩
        rw [String.append_empty]
        exact textUpTo_of_terminator text ends.held
      · obtain ⟨byte, held⟩ := Memory.byte?_of_lt (Nat.lt_trans before ends.inside)
        have other : byte ≠ terminator := by
          rintro rfl
          exact ends.first start (Nat.le_refl _) before held
        have later : EndsAt memory (start + 1) stop :=
          ⟨before, ends.held, fun i after => ends.first i (Nat.le_of_succ_le after)⟩
        obtain ⟨printed, found, shows⟩ := ih (text.push (characterOf byte)) later (by omega)
        refine ⟨_, ?_, shows.cons held before⟩
        rw [textUpTo_of_byte text held other, found, ← String.append_assoc,
          String.append_singleton]

theorem textUpTo_of_none (absent : ∀ i, start ≤ i → memory.byte? i ≠ some terminator)
    (text : String) : textUpTo memory text count start = none := by
  induction count generalizing start text with
  | zero => rfl
  | succ count ih =>
      cases held : memory.byte? start with
      | none => simp only [textUpTo, held]
      | some byte =>
          have other : byte ≠ terminator := by
            rintro rfl
            exact absent start (Nat.le_refl _) held
          rw [textUpTo_of_byte text held other]
          exact ih (fun i after => absent i (by omega)) _

theorem textAt_of_endsAt (ends : EndsAt memory start stop) :
    ∃ text, textAt memory start = .ok text ∧ Shows memory text start stop := by
  have inside := ends.inside
  have reached := ends.le
  obtain ⟨printed, found, shows⟩ := textUpTo_of_endsAt (memory.capacity - start) "" ends (by omega)
  refine ⟨printed, ?_, shows⟩
  rw [textAt, if_pos (by omega), found, String.empty_append]

theorem textAt_of_none (inside : start < memory.capacity)
    (absent : ∀ i, start ≤ i → memory.byte? i ≠ some terminator) :
    textAt memory start = .error (.unterminated start) := by
  rw [textAt, if_pos inside, textUpTo_of_none absent]

theorem textAt_of_ge (outside : memory.capacity ≤ start) :
    textAt memory start = .error (.outsideMemory start) := by
  rw [textAt, if_neg (by omega)]

theorem exists_endsAt {i : Nat} (after : start ≤ i) (held : memory.byte? i = some terminator) :
    ∃ stop, EndsAt memory start stop := by
  have found : ∃ i, start ≤ i ∧ memory.byte? i = some terminator := ⟨i, after, held⟩
  obtain ⟨later, here⟩ := Nat.find_spec found
  exact ⟨Nat.find found, later, here,
    fun i after less held => Nat.find_min found less ⟨after, held⟩⟩

/-! ## Calls -/

namespace Session

variable {s t : Session} {textOffset : UInt16} {text : String}

/-- Where the text of a call starts. The sum is a natural number and does not wrap. -/
def textStart (s : Session) (textOffset : UInt16) : Nat :=
  s.core.registers.de.toNat + textOffset.toNat

/-- The session `t` is `s` after a call that has printed a text: it goes on behind the call,
with the same processor and memory otherwise. -/
structure Prints (s : Session) (text : String) (t : Session) : Prop where
  output : t.output = s.output ++ text
  processor : t.cpu.processor = s.cpu.processor.jump (s.core.registers.pc + 3)
  steps : t.steps = s.steps
  cycles : t.cycles = s.cycles

theorem serveConsole_of_ok (h : consoleOutput s.core.registers s.memory textOffset = .ok text) :
    ∃ t, s.serveConsole textOffset = .ok t ∧ s.Prints text t := by
  simp only [serveConsole, h]
  refine ⟨_, rfl, ?_⟩
  cases ConsoleFunction.ofNumber s.core.registers.c <;> exact ⟨rfl, rfl, rfl, rfl⟩

theorem serveConsole_of_error {failure : TextFailure}
    (h : consoleOutput s.core.registers s.memory textOffset = .error failure) :
    s.serveConsole textOffset = .error failure := by
  simp only [serveConsole, h]
  rfl

theorem consoleOutput_of_nine (textOffset : UInt16) (nine : s.core.registers.c = 9) :
    consoleOutput s.core.registers s.memory textOffset =
      textAt s.memory (s.textStart textOffset) := by
  rw [consoleOutput, nine]
  rfl

theorem serveConsole_of_nine (textOffset : UInt16) (nine : s.core.registers.c = 9) :
    (∀ stop, EndsAt s.memory (s.textStart textOffset) stop →
      ∃ t text, s.serveConsole textOffset = .ok t ∧ s.Prints text t ∧
        Shows s.memory text (s.textStart textOffset) stop) ∧
    (s.memory.capacity ≤ s.textStart textOffset →
      s.serveConsole textOffset = .error (.outsideMemory (s.textStart textOffset))) ∧
    (s.textStart textOffset < s.memory.capacity →
      (∀ i, s.textStart textOffset ≤ i → s.memory.byte? i ≠ some terminator) →
        s.serveConsole textOffset = .error (.unterminated (s.textStart textOffset))) := by
  have output := consoleOutput_of_nine textOffset nine
  refine ⟨fun stop ends => ?_, fun outside => ?_, fun inside absent => ?_⟩
  · obtain ⟨text, found, shows⟩ := textAt_of_endsAt ends
    obtain ⟨t, served, prints⟩ := serveConsole_of_ok (output.trans found)
    exact ⟨t, text, served, prints, shows⟩
  · exact serveConsole_of_error (output.trans (textAt_of_ge outside))
  · exact serveConsole_of_error (output.trans (textAt_of_none inside absent))

theorem serves_of_terminator (nine : s.core.registers.c = 9) {i : Nat}
    (after : s.textStart textOffset ≤ i) (held : s.memory.byte? i = some terminator) :
    ∃ t, s.serveConsole textOffset = .ok t := by
  obtain ⟨stop, ends⟩ := exists_endsAt after held
  obtain ⟨t, -, served, -⟩ := (serveConsole_of_nine textOffset nine).1 stop ends
  exact ⟨t, served⟩

theorem absent_of_error {failure : TextFailure} (nine : s.core.registers.c = 9)
    (failed : s.serveConsole textOffset = .error failure) (i : Nat)
    (after : s.textStart textOffset ≤ i) : s.memory.byte? i ≠ some terminator := by
  intro held
  obtain ⟨t, served⟩ := serves_of_terminator nine after held
  cases served.symm.trans failed

/-! The three outcomes exclude each other, so the condition of each is also necessary. -/

theorem serves_iff (nine : s.core.registers.c = 9) :
    (∃ t, s.serveConsole textOffset = .ok t) ↔
      ∃ i, s.textStart textOffset ≤ i ∧ s.memory.byte? i = some terminator := by
  obtain ⟨-, outsideMemory, unterminated⟩ := serveConsole_of_nine textOffset nine
  constructor
  · rintro ⟨t, served⟩
    by_contra never
    rcases Nat.lt_or_ge (s.textStart textOffset) s.memory.capacity with inside | outside
    · have failed := unterminated inside fun i after held => never ⟨i, after, held⟩
      cases served.symm.trans failed
    · cases served.symm.trans (outsideMemory outside)
  · rintro ⟨i, after, held⟩
    exact serves_of_terminator nine after held

theorem outsideMemory_iff (nine : s.core.registers.c = 9) :
    s.serveConsole textOffset = .error (.outsideMemory (s.textStart textOffset)) ↔
      s.memory.capacity ≤ s.textStart textOffset := by
  obtain ⟨-, outsideMemory, unterminated⟩ := serveConsole_of_nine textOffset nine
  refine ⟨fun failed => Nat.le_of_not_lt fun inside => ?_, outsideMemory⟩
  cases failed.symm.trans (unterminated inside (absent_of_error nine failed))

theorem unterminated_iff (nine : s.core.registers.c = 9) :
    s.serveConsole textOffset = .error (.unterminated (s.textStart textOffset)) ↔
      s.textStart textOffset < s.memory.capacity ∧
        ∀ i, s.textStart textOffset ≤ i → s.memory.byte? i ≠ some terminator := by
  obtain ⟨-, outsideMemory, unterminated⟩ := serveConsole_of_nine textOffset nine
  constructor
  · intro failed
    refine ⟨Nat.lt_of_not_le fun outside => ?_, absent_of_error nine failed⟩
    cases failed.symm.trans (outsideMemory outside)
  · rintro ⟨inside, absent⟩
    exact unterminated inside absent

theorem serveConsole_of_two (two : s.core.registers.c = 2) :
    ∃ t, s.serveConsole textOffset = .ok t ∧
      s.Prints (String.singleton (characterOf s.core.registers.e)) t := by
  refine serveConsole_of_ok ?_
  rw [consoleOutput, two]
  rfl

theorem serveConsole_of_other (two : s.core.registers.c ≠ 2) (nine : s.core.registers.c ≠ 9) :
    ∃ t, s.serveConsole textOffset = .ok t ∧ s.Prints "" t := by
  have other : ConsoleFunction.ofNumber s.core.registers.c = .other s.core.registers.c := by
    unfold ConsoleFunction.ofNumber
    split
    · exact absurd (UInt8.toNat_inj.mp ‹_›) two
    · exact absurd (UInt8.toNat_inj.mp ‹_›) nine
    · rfl
  refine serveConsole_of_ok ?_
  rw [consoleOutput, other]

/-- Function 9 prints the bytes from its start up to the first terminator, or else fails for one
of two reasons, by where the start lies. Function 2 prints one character and the others print
nothing. -/
theorem console_call_prints (s : Session) (textOffset : UInt16) :
    (s.core.registers.c = 9 →
      ((∃ t, s.serveConsole textOffset = .ok t) ↔
        ∃ i, s.textStart textOffset ≤ i ∧ s.memory.byte? i = some 0x24) ∧
      (∀ stop, EndsAt s.memory (s.textStart textOffset) stop →
        ∃ t text, s.serveConsole textOffset = .ok t ∧ s.Prints text t ∧
          Shows s.memory text (s.textStart textOffset) stop) ∧
      (s.serveConsole textOffset = .error (.outsideMemory (s.textStart textOffset)) ↔
        s.memory.capacity ≤ s.textStart textOffset) ∧
      (s.serveConsole textOffset = .error (.unterminated (s.textStart textOffset)) ↔
        s.textStart textOffset < s.memory.capacity ∧
          ∀ i, s.textStart textOffset ≤ i → s.memory.byte? i ≠ some 0x24)) ∧
    (s.core.registers.c = 2 → ∃ t text, s.serveConsole textOffset = .ok t ∧ s.Prints text t ∧
      text.toList.map Char.toNat = [s.core.registers.e.toNat]) ∧
    (s.core.registers.c ≠ 2 → s.core.registers.c ≠ 9 →
      ∃ t, s.serveConsole textOffset = .ok t ∧ s.Prints "" t) := by
  refine ⟨fun nine => ?_, fun two => ?_, serveConsole_of_other⟩
  · obtain ⟨prints, -, -⟩ := serveConsole_of_nine textOffset nine
    exact ⟨serves_iff nine, prints, outsideMemory_iff nine, unterminated_iff nine⟩
  · obtain ⟨t, served, prints⟩ := serveConsole_of_two two
    refine ⟨t, _, served, prints, ?_⟩
    rw [String.toList_singleton, List.map_cons, toNat_characterOf]
    rfl

def printing : Session where
  cpu :=
    { processor :=
        { core := { Core.cleared with registers := { Registers.cleared with c := 9, e := 1 } }
          memory := ⟨⟨#[0x24, 0x00, 0x48, 0x69, 0x24]⟩⟩
          ports := ⟨(), none, none⟩ }
      journal := .opened none
      remark := Monitor.silent }
  output := "> "
  steps := 1
  cycles := 0

/-- One byte after DE there is a text of two characters, and three bytes later memory has
ended. -/
theorem console_call_prints_printing :
    (∃ t text, printing.serveConsole 1 = .ok t ∧ printing.Prints text t ∧
        text.toList.map (fun character => some character.toNat) = [some 0x48, some 0x69]) ∧
      printing.serveConsole 4 = .error (.outsideMemory 5) := by
  have ends : EndsAt printing.memory (printing.textStart 1) 4 := by
    refine ⟨by decide, rfl, fun i after less => ?_⟩
    obtain rfl | rfl : i = 2 ∨ i = 3 := by
      have start : printing.textStart 1 = 2 := rfl
      omega
    all_goals decide
  obtain ⟨-, prints, -⟩ := (console_call_prints printing 1).1 rfl
  obtain ⟨-, -, outsideMemory, -⟩ := (console_call_prints printing 4).1 rfl
  exact ⟨prints 4 ends, outsideMemory.mpr (by decide)⟩

end Session

end Diagnostic

end Intel8080
