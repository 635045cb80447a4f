import Intel8080.Invaders.Headless
import Intel8080.Proofs.Invaders.Conservation
import Intel8080.Proofs.Invaders.Picture
import Intel8080.Proofs.Invaders.Timeline
import Intel8080.Proofs.Invaders.Wiring
import Intel8080.Proofs.Memory.Loading

/-!
# Headless runs of different length

Runs of one program share their frames. So a program either completes every number of frames
up to the one asked for, or there is one frame at which all longer runs fail in the same way.
On the board nothing but an opcode without a meaning can fail.
-/

namespace Intel8080.Invaders

namespace Machine

variable {m after stopped : Machine} {reports : List Nat} {cause : Fault}

/-! ## Frames that complete -/

namespace FrameRun

theorem assembled (h : FrameRun m reports after) (start : Assembled m.cpu.processor) :
    Assembled after.cpu.processor := by
  induction h with
  | done m => exact start
  | frame stepped _ ih =>
      have next := start.stepFrame.1
      rw [stepped] at next
      exact ih next

theorem frameCycles_le (h : FrameRun m reports after) (near : m.frameCycles ≤ 17) :
    after.frameCycles ≤ 17 := by
  induction h with
  | done m => exact near
  | frame stepped _ ih =>
      have counted := frameCycles_of_ok stepped
      exact ih (by omega)

theorem sum_bounds (h : FrameRun m reports after) (start : m.frameCycles = 0) :
    reports.length * m.configuration.cyclesPerFrame ≤ reports.sum ∧
      reports.sum ≤ reports.length * m.configuration.cyclesPerFrame + 17 := by
  have balance := (h.serves 0).2
  have overshoot := h.frameCycles_le (by omega)
  omega

theorem take (h : FrameRun m reports after) (count : Nat) :
    ∃ middle, FrameRun m (reports.take count) middle := by
  induction h generalizing count with
  | done m => exact ⟨m, by simpa using .done m⟩
  | frame stepped _ ih =>
      cases count with
      | zero => exact ⟨_, .done _⟩
      | succ count =>
          obtain ⟨middle, earlier⟩ := ih count
          exact ⟨middle, .frame stepped earlier⟩

end FrameRun

theorem stepFrame_of_failing_step {q : Processor Board}
    (early : m.frameCycles < m.configuration.cyclesPerFrame / 2)
    (failed : m.cpu.processor.step = (.error cause, q)) : m.stepFrame.1 = .error cause :=
  (stepFrame_of_frameCall rfl rfl rfl (.early (.fault early failed))).2.1

/-- Any number of frames completes, or fewer of them do and the next one fails. -/
theorem frames_complete_or_fail (m : Machine) (count : Nat) :
    ∃ reports after, FrameRun m reports after ∧
      (reports.length = count ∨
        reports.length < count ∧ ∃ cause stopped, after.stepFrame = (.error cause, stopped)) := by
  induction count generalizing m with
  | zero => exact ⟨[], m, .done m, .inl rfl⟩
  | succ count ih =>
      cases stepped : m.stepFrame with
      | mk outcome next =>
          cases outcome with
          | error cause => exact ⟨[], m, .done m, .inr ⟨Nat.succ_pos _, cause, next, stepped⟩⟩
          | ok spent =>
              obtain ⟨reports, after, run, ending⟩ := ih next
              refine ⟨spent :: reports, after, .frame stepped run, ?_⟩
              rw [List.length_cons]
              rcases ending with all | ⟨fewer, failing⟩
              · exact .inl (congrArg Nat.succ all)
              · exact .inr ⟨Nat.succ_lt_succ fewer, failing⟩

/-! ## The loop over frames -/

theorem runFrames_of_frameRun (h : FrameRun m reports after) (remaining done cycles : Nat) :
    m.runFrames (reports.length + remaining) done cycles =
      after.runFrames remaining (done + reports.length) (cycles + reports.sum) := by
  induction h generalizing done cycles with
  | done m => simp
  | @frame m next after spent later stepped _ ih =>
      have split : (spent :: later).length + remaining = later.length + remaining + 1 := by
        rw [List.length_cons]
        omega
      rw [split, runFrames, stepped]
      simp only [ih, List.length_cons, List.sum_cons, Nat.add_assoc, Nat.add_comm 1]

theorem runFrames_of_complete (h : FrameRun m reports after) :
    m.runFrames reports.length 0 0 =
      (.ok ⟨reports.length, reports.sum, after.litPixels⟩, after) := by
  have run := runFrames_of_frameRun h 0 0 0
  rw [Nat.add_zero, Nat.zero_add, Nat.zero_add] at run
  rw [run, runFrames]

theorem runFrames_of_failure (h : FrameRun m reports after)
    (failed : after.stepFrame = (.error cause, stopped)) {count : Nat}
    (longer : reports.length < count) :
    m.runFrames count 0 0 =
      (.error (.frameFault reports.length stopped.cpu.processor.core cause), stopped) := by
  obtain ⟨rest, rfl⟩ := Nat.exists_eq_add_of_lt longer
  rw [Nat.add_assoc, runFrames_of_frameRun h, runFrames, failed, Nat.zero_add]

/-! ## The loaded machine -/

theorem exists_loadRom_of_le {rom : ByteArray} (h : rom.size ≤ m.cpu.processor.memory.capacity)
    (assembled : Assembled m.cpu.processor) :
    ∃ loaded, m.loadRom rom = .ok loaded ∧ loaded.configuration = m.configuration ∧
      loaded.frameCycles = m.frameCycles ∧ Assembled loaded.cpu.processor := by
  obtain ⟨memory, placed⟩ : ∃ memory, m.cpu.processor.memory.load rom 0 = .ok memory :=
    ⟨_, Memory.load_of_le (by omega)⟩
  refine ⟨_, loadRom_of_load (Processor.load_of_ok placed), rfl, rfl, ?_⟩
  refine ⟨⟨assembled.wired.input, assembled.wired.output⟩, ?_⟩
  exact Nat.le_trans assembled.covering (Nat.le_of_eq (Memory.capacity_of_load placed).symm)

end Machine

/-! ## What a run says -/

namespace RunFailure

theorem message_frameFault_ne (frame : Nat) (core : Core) (fault : Fault) :
    (frameFault frame core fault).message ≠ "ROM does not fit in memory" := by
  change s!"CPU fault in frame {frame} ({core.dump})" ≠ _
  rw [String.append_assoc, String.append_assoc, String.append_assoc]
  intro same
  change "CPU fault in frame " ++ _ = _ at same
  have letters := congrArg String.toList same
  rw [String.toList_append] at letters
  simp at letters

/-- A failure in a frame. The message dumps the registers, and the cause is the opcode at
the PC that the dump shows. -/
def RefusesIn (failure : RunFailure) (frame : Nat) : Prop :=
  ∃ (core : Core) (opcode : UInt8) (before after : String),
    failure.message = s!"CPU fault in frame {frame} ({core.dump})" ∧
    core.dump = before ++ s!" PC: {Hex.word core.registers.pc} SP: " ++ after ∧
    failure.fault = .unimplementedOpcode opcode core.registers.pc ∧ Opcode.Refused opcode

theorem refusesIn_of_refusesOpcode {p : Processor Board} {cause : Fault}
    (h : RefusesOpcode p cause) (frame : Nat) :
    (frameFault frame p.core cause).RefusesIn frame := by
  obtain ⟨opcode, refused, rfl⟩ := h
  obtain ⟨before, after, shown⟩ := p.core.exists_pc_in_dump
  exact ⟨p.core, opcode, before, after, rfl, shown, rfl, refused⟩

end RunFailure

/-- The run of a program succeeds for a number of frames, with the totals of these frames:
their cycles, and the picture that they leave in memory. -/
def Completes (rom : ByteArray) (journal : Journal) (start : Machine) (frames : Nat) : Prop :=
  ∃ reports after, Machine.FrameRun start reports after ∧ reports.length = frames ∧
    (runHeadless rom frames journal).1 =
      .ok ⟨frames, reports.sum, after.cpu.processor.memory.setBits 0x2400 0x1c00⟩ ∧
    frames * 33333 ≤ reports.sum ∧ reports.sum ≤ frames * 33333 + 17 ∧
    after.cpu.processor.memory.setBits 0x2400 0x1c00 ≤ 57344

/-! ## Runs of a program -/

/-- The machine with which the run of a program starts. -/
structure Boots (rom : ByteArray) (journal : Journal) (start : Machine) : Prop where
  loaded : (Machine.new .standard journal).loadRom rom = .ok start
  standard : start.configuration = .standard
  fresh : start.frameCycles = 0
  assembled : Assembled start.cpu.processor

theorem exists_boots_of_le {rom : ByteArray} (h : rom.size ≤ Memory.addressSpace)
    (journal : Journal) : ∃ start, Boots rom journal start := by
  have assembled := Assembled.of_new .standard journal
  obtain ⟨start, loaded, standard, fresh, ready⟩ :=
    Machine.exists_loadRom_of_le (Nat.le_trans h assembled.covering) assembled
  exact ⟨start, loaded, standard, fresh, ready⟩

theorem runHeadless_of_gt {rom : ByteArray} (h : Memory.addressSpace < rom.size) (frames : Nat)
    (journal : Journal) :
    (runHeadless rom frames journal).1 =
      .error (.romTooLarge ⟨0, rom.size, Memory.addressSpace⟩) := by
  have capacity : (Machine.new .standard journal).cpu.processor.memory.capacity =
      Memory.addressSpace := Memory.capacity_zeroed _
  rw [runHeadless, Machine.loadRom_of_gt (by rw [capacity]; exact h), capacity]

namespace Boots

variable {rom : ByteArray} {journal : Journal} {start after stopped : Machine}
  {reports : List Nat} {cause : Fault}

theorem runHeadless_eq (h : Boots rom journal start) (frames : Nat) :
    (runHeadless rom frames journal).1 = (start.runFrames frames 0 0).1 := by
  rw [runHeadless, h.loaded]

theorem completes (h : Boots rom journal start) (run : Machine.FrameRun start reports after) :
    Completes rom journal start reports.length := by
  have bounds := run.sum_bounds h.fresh
  have length : start.configuration.cyclesPerFrame = 33333 := by
    rw [h.standard]
    rfl
  rw [length] at bounds
  have covering : videoStart + videoSize ≤ after.cpu.processor.memory.capacity :=
    Nat.le_trans (by decide) (run.assembled h.assembled).covering
  have result := h.runHeadless_eq reports.length
  rw [Machine.runFrames_of_complete run, Machine.litPixels_eq covering] at result
  have pixels := after.cpu.processor.memory.setBits_le videoStart videoSize
  exact ⟨reports, after, run, rfl, result, bounds.1, bounds.2, pixels⟩

theorem completes_of_le (h : Boots rom journal start)
    (run : Machine.FrameRun start reports after) {count : Nat} (fewer : count ≤ reports.length) :
    Completes rom journal start count := by
  obtain ⟨middle, earlier⟩ := run.take count
  have completed := h.completes earlier
  rwa [List.length_take, Nat.min_eq_left fewer] at completed

theorem fails (h : Boots rom journal start) (run : Machine.FrameRun start reports after)
    (failed : after.stepFrame = (.error cause, stopped)) :
    ∃ failure : RunFailure, failure.RefusesIn reports.length ∧
      ∀ count > reports.length, (runHeadless rom count journal).1 = .error failure := by
  have refuses := (run.assembled h.assembled).stepFrame.2
  rw [failed] at refuses
  refine ⟨_, RunFailure.refusesIn_of_refusesOpcode (refuses cause rfl) reports.length, ?_⟩
  intro count longer
  rw [h.runHeadless_eq, Machine.runFrames_of_failure run failed longer]

theorem message_ne (h : Boots rom journal start) {frames : Nat} {failure : RunFailure}
    (failed : (runHeadless rom frames journal).1 = .error failure) :
    failure.message ≠ "ROM does not fit in memory" := by
  obtain ⟨reports, after, run, all | ⟨fewer, cause, stopped, stuck⟩⟩ :=
    start.frames_complete_or_fail frames
  · subst all
    rw [h.runHeadless_eq, Machine.runFrames_of_complete run] at failed
    cases failed
  · rw [h.runHeadless_eq, Machine.runFrames_of_failure run stuck fewer] at failed
    cases failed
    exact RunFailure.message_frameFault_ne _ _ _

end Boots

/-- A program is refused exactly if it is larger than the address space. Otherwise all runs
up to a length complete, or there is a frame that no run gets past: all longer runs fail in
it, in the same way, and all others complete. -/
theorem runHeadless_consistent (rom : ByteArray) (frames : Nat) (journal : Journal) :
    ((∃ failure, (runHeadless rom frames journal).1 = .error failure ∧
        failure.message = "ROM does not fit in memory") ↔ 65536 < rom.size) ∧
    (rom.size ≤ 65536 →
      ∃ start, (Machine.new .standard journal).loadRom rom = .ok start ∧
        ((∀ count ≤ frames, Completes rom journal start count) ∨
          ∃ frame < frames, ∃ failure : RunFailure, failure.RefusesIn frame ∧
            (∀ count ≤ frame, Completes rom journal start count) ∧
            ∀ count > frame, (runHeadless rom count journal).1 = .error failure)) := by
  refine ⟨⟨?_, ?_⟩, ?_⟩
  · rintro ⟨failure, failed, text⟩
    rcases Nat.lt_or_ge 65536 rom.size with larger | fits
    · exact larger
    · obtain ⟨start, boots⟩ := exists_boots_of_le fits journal
      exact absurd text (boots.message_ne failed)
  · intro larger
    exact ⟨_, runHeadless_of_gt larger frames journal, rfl⟩
  · intro fits
    obtain ⟨start, boots⟩ := exists_boots_of_le fits journal
    refine ⟨start, boots.loaded, ?_⟩
    obtain ⟨reports, after, run, all | ⟨fewer, cause, stopped, stuck⟩⟩ :=
      start.frames_complete_or_fail frames
    · refine .inl ?_
      intro count within
      exact boots.completes_of_le run (by omega)
    · obtain ⟨failure, refuses, still⟩ := boots.fails run stuck
      exact .inr ⟨reports.length, fewer, failure, refuses,
        fun count within => boots.completes_of_le run within, still⟩

def halting : ByteArray :=
  ⟨#[0x76]⟩

theorem not_frameRun_halting {journal : Journal} {start after : Machine} {spent : Nat}
    {later : List Nat} (loaded : (Machine.new .standard journal).loadRom halting = .ok start) :
    ¬ Machine.FrameRun start (spent :: later) after := by
  obtain ⟨memory, placed⟩ :
      ∃ memory, (Memory.zeroed Memory.addressSpace).load halting 0 = .ok memory :=
    ⟨_, Memory.load_of_le (by rw [Memory.capacity_zeroed]; decide)⟩
  have copied : (Machine.new .standard journal).cpu.processor.load halting 0 =
      .ok { (Machine.new .standard journal).cpu.processor with memory } :=
    Processor.load_of_ok placed
  rw [Machine.loadRom_of_load copied] at loaded
  cases loaded
  have covering : Memory.addressSpace ≤ memory.capacity :=
    Nat.le_of_eq ((Memory.capacity_of_load placed).trans (Memory.capacity_zeroed _)).symm
  have opcode : memory.byteAt 0 = 0x76 := by
    rw [Memory.byteAt, Memory.byte?_of_load placed, if_pos (by decide)]
    rfl
  have failed := Processor.step_of_refused
    (p := { (Machine.new .standard journal).cpu.processor with memory }) covering (.inr opcode)
  have early : 0 < Configuration.standard.cyclesPerFrame / 2 := by decide
  rintro (_ | ⟨stepped, -⟩)
  have outcome := congrArg Prod.fst stepped
  rw [Machine.stepFrame_of_failing_step early failed] at outcome
  cases outcome

theorem runHeadless_consistent_halting :
    halting.size ≤ 65536 ∧ ∃ failure : RunFailure, failure.RefusesIn 0 ∧
      ∀ count > 0, (runHeadless halting count (Journal.opened none)).1 = .error failure := by
  have small : halting.size ≤ 65536 := by decide
  obtain ⟨start, loaded, alternatives⟩ :=
    (runHeadless_consistent halting 1 (Journal.opened none)).2 small
  refine ⟨small, ?_⟩
  rcases alternatives with complete | ⟨frame, first, failure, refuses, -, still⟩
  · obtain ⟨reports, after, run, length, -⟩ := complete 1 (Nat.le_refl 1)
    obtain ⟨spent, rfl⟩ := List.length_eq_one_iff.mp length
    exact absurd run (not_frameRun_halting loaded)
  · obtain rfl : frame = 0 := by omega
    exact ⟨failure, refuses, still⟩

end Intel8080.Invaders
