import Intel8080.Proofs.Diagnostic.Growth

/-!
# The two limits of a diagnostic run

A run may use so many steps and so much memory. With more of either a run that ends does what
it has done, and with fewer steps than it takes it stops at its limit.
-/

namespace Intel8080

namespace Diagnostic

/-! ## Courses under other limits -/

namespace Course

variable {configuration : Configuration} {memory : Memory} {deeds : List Deed} {p : Processor Unit}

theorem withLimits (h : Course configuration memory deeds p) (limit size : Nat) :
    Course { configuration with maxSteps := limit, memorySize := size } memory deeds p := by
  induction h with
  | start => exact .start
  | next _ goesOn ih => exact .next ih goesOn

theorem take (h : Course configuration memory deeds p) {count : Nat}
    (within : count ≤ deeds.length) :
    ∃ q, Course configuration memory (deeds.take count) q := by
  induction h with
  | start => exact ⟨_, by simpa using .start⟩
  | @next deeds deed p q course goesOn ih =>
      rw [List.length_append, List.length_singleton] at within
      rcases Nat.lt_or_eq_of_le within with fewer | all
      · rw [List.take_append_of_le_length (by omega)]
        exact ih (by omega)
      · refine ⟨q, ?_⟩
        rw [List.take_of_length_le (by simp [all])]
        exact course.next goesOn

end Course

/-! ## The last iteration -/

namespace Session

variable {configuration : Configuration} {s : Session}

theorem steps_executeNext (s : Session) : s.executeNext.2.steps = s.steps := by
  obtain ⟨cpu, output, steps, cycles⟩ := s
  simp only [executeNext]
  split <;> rfl

theorem steps_run_of_stopping (remaining : Nat)
    (h : verdict configuration (s.steps == 0) s.cpu.processor = .exits ∨
      ∃ failure, verdict configuration (s.steps == 0) s.cpu.processor = .fails failure) :
    (s.run configuration (remaining + 1)).2.steps = s.steps + 1 := by
  rw [verdict_eq] at h
  rw [run_succ]
  cases decided : s.begun.decide with
  | error access => rfl
  | ok decision =>
      rw [decided] at h
      cases decision with
      | exit => rfl
      | console =>
          have served := s.serveConsole_follows configuration
          change serveVerdict configuration s.cpu.processor = .exits ∨
            ∃ failure, serveVerdict configuration s.cpu.processor = .fails failure at h
          rcases h with exits | ⟨failure, fails⟩
          · rw [exits] at served
            exact served.elim
          · rw [fails] at served
            obtain ⟨cause, -, failed⟩ := served
            simp only [failed]
            rfl
      | execute =>
          have executed := s.executeNext_follows
          change executeVerdict s.cpu.processor = .exits ∨
            ∃ failure, executeVerdict s.cpu.processor = .fails failure at h
          rcases h with exits | ⟨failure, fails⟩
          · rw [exits] at executed
            exact executed.elim
          · rw [fails] at executed
            have counted := s.begun.steps_executeNext
            cases ended : s.begun.executeNext with
            | mk failed t =>
                rw [ended] at executed counted
                cases executed
                exact counted

end Session

/-- The iterations that a run begins before it ends, the last one included. -/
def iterations (program : ByteArray) (configuration : Configuration) (journal : Journal) : Nat :=
  match loadedMemory program configuration with
  | .error _ => 0
  | .ok memory =>
      let started := (Session.start memory configuration journal).note
        (.programStarted program.size configuration.loadAddress)
      (started.run configuration configuration.maxSteps).2.steps

/-- The failures that an iteration can end with. -/
def Failure.EndsIteration : Failure → Prop
  | .unreadable _ | .text _ | .instruction .. => True
  | .programTooLarge _ | .patchOutside .. | .stepLimit .. => False

section

variable {program : ByteArray} {configuration : Configuration} {memory : Memory}
  {deeds : List Deed} {p : Processor Unit}

theorem iterations_of_stopping (loaded : loadedMemory program configuration = .ok memory)
    (journal : Journal) (course : Course configuration memory deeds p)
    (early : deeds.length < configuration.maxSteps)
    (stopping : verdict configuration deeds.isEmpty p = .exits ∨
      ∃ failure, verdict configuration deeds.isEmpty p = .fails failure) :
    iterations program configuration journal = deeds.length + 1 := by
  have begun := records_started program configuration memory journal
  obtain ⟨s, records, reached⟩ := Session.run_of_course begun course
  obtain ⟨remaining, left⟩ := Nat.exists_eq_add_of_lt early
  rw [← records.first, ← records.processor] at stopping
  simp only [iterations, loaded]
  rw [left, Nat.add_assoc, reached, Session.steps_run_of_stopping remaining stopping,
    records.steps]

theorem course_of_failure (loaded : loadedMemory program configuration = .ok memory)
    {journal : Journal} {failure : Failure}
    (ended : (run program configuration journal).1 = .error failure)
    (inside : failure.EndsIteration) :
    ∃ deeds p, Course configuration memory deeds p ∧ deeds.length < configuration.maxSteps ∧
      verdict configuration deeds.isEmpty p = .fails failure := by
  rcases run_cases loaded journal with
    ⟨deeds, p, -, -, lasted⟩ | ⟨deeds, p, -, -, -, finished⟩ |
    ⟨deeds, p, cause, course, early, fails, failed⟩
  · cases ended.symm.trans lasted
    exact inside.elim
  · cases ended.symm.trans finished
  · cases ended.symm.trans failed
    exact ⟨deeds, p, course, early, fails⟩

theorem not_endsIteration_of_applyPatches {patches : List (UInt16 × UInt8)} {failure : Failure}
    (h : applyPatches memory patches = .error failure) : ¬ failure.EndsIteration := by
  induction patches generalizing memory with
  | nil => cases h
  | cons patch rest ih =>
      obtain ⟨address, value⟩ := patch
      simp only [applyPatches] at h
      cases written : memory.write address value with
      | error access =>
          rw [written] at h
          cases h
          exact id
      | ok next =>
          rw [written] at h
          exact ih h

theorem not_endsIteration_of_unloaded {failure : Failure}
    (unloaded : loadedMemory program configuration = .error failure) :
    ¬ failure.EndsIteration := by
  simp only [loadedMemory] at unloaded
  split at unloaded
  · cases unloaded
    exact id
  · exact not_endsIteration_of_applyPatches unloaded

/-! ## Runs under other limits -/

/-- A run stops at a limit that is reached before its last iteration. -/
theorem run_of_fewer (loaded : loadedMemory program configuration = .ok memory)
    (journal : Journal) (course : Course configuration memory deeds p) {limit : Nat}
    (fewer : limit ≤ deeds.length) :
    ∃ address, (run program { configuration with maxSteps := limit } journal).1 =
      .error (.stepLimit limit address) := by
  obtain ⟨q, earlier⟩ := course.take fewer
  have length : (deeds.take limit).length = limit := by
    rw [List.length_take, Nat.min_eq_left fewer]
  have limited := earlier.withLimits limit configuration.memorySize
  have loadedLimited :
      loadedMemory program { configuration with maxSteps := limit } = .ok memory := loaded
  exact ⟨_, run_of_lasting loadedLimited journal limited length⟩

theorem run_of_exits_grown (loaded : loadedMemory program configuration = .ok memory)
    (journal : Journal) (course : Course configuration memory deeds p)
    (exits : verdict configuration deeds.isEmpty p = .exits) {limit size : Nat}
    (early : deeds.length < limit) (larger : configuration.memorySize ≤ size) :
    (run program { configuration with maxSteps := limit, memorySize := size } journal).1 =
      .ok (reportAfter deeds) := by
  obtain ⟨tail, loadedGrown⟩ := exists_loadedMemory_grown loaded limit larger
  refine run_of_exits loadedGrown journal ((course.grown tail).withLimits limit size) early ?_
  have same : verdict configuration deeds.isEmpty (p.grown tail) =
      (verdict configuration deeds.isEmpty p).grown tail := verdict_grown tail (by simp [exits])
  exact same.trans (congrArg (Verdict.grown tail) exits)

theorem run_of_fails_limited (loaded : loadedMemory program configuration = .ok memory)
    (journal : Journal) (course : Course configuration memory deeds p) {failure : Failure}
    (fails : verdict configuration deeds.isEmpty p = .fails failure) {limit : Nat}
    (early : deeds.length < limit) :
    (run program { configuration with maxSteps := limit } journal).1 = .error failure := by
  have limited := course.withLimits limit configuration.memorySize
  have loadedLimited :
      loadedMemory program { configuration with maxSteps := limit } = .ok memory := loaded
  exact run_of_fails loadedLimited journal limited early fails

end

/-- A report stands under every limit that it keeps to and with any more memory, and below
its number of steps the run stops at the limit instead. A failure in an iteration stands
under every limit that the iteration keeps to, and below that the run stops at the limit. -/
theorem run_respects_limits (program : ByteArray) (configuration : Configuration)
    (journal : Journal) :
    (∀ report, (run program configuration journal).1 = .ok report →
      report.steps = iterations program configuration journal ∧
      (∀ limit size, report.steps ≤ limit → configuration.memorySize ≤ size →
        (run program { configuration with maxSteps := limit, memorySize := size } journal).1 =
          .ok report) ∧
      ∀ limit < report.steps, ∃ address,
        (run program { configuration with maxSteps := limit } journal).1 =
          .error (.stepLimit limit address)) ∧
    ∀ failure, (run program configuration journal).1 = .error failure → failure.EndsIteration →
      0 < iterations program configuration journal ∧
      iterations program configuration journal ≤ configuration.maxSteps ∧
      (∀ limit, iterations program configuration journal ≤ limit →
        (run program { configuration with maxSteps := limit } journal).1 = .error failure) ∧
      ∀ limit < iterations program configuration journal, ∃ address,
        (run program { configuration with maxSteps := limit } journal).1 =
          .error (.stepLimit limit address) := by
  cases loaded : loadedMemory program configuration with
  | error cause =>
      have ended := congrArg Prod.fst (run_of_unloaded loaded journal)
      refine ⟨?_, ?_⟩
      · intro report finished
        cases finished.symm.trans ended
      · intro failure failed inside
        cases failed.symm.trans ended
        exact absurd inside (not_endsIteration_of_unloaded loaded)
  | ok memory =>
      refine ⟨?_, ?_⟩
      · intro report finished
        obtain ⟨deeds, p, course, early, exits, rfl⟩ := course_of_report loaded finished
        have count := iterations_of_stopping loaded journal course early (.inl exits)
        refine ⟨count.symm, ?_, ?_⟩
        · intro limit size enough larger
          exact run_of_exits_grown loaded journal course exits enough larger
        · intro limit fewer
          exact run_of_fewer loaded journal course (Nat.le_of_lt_succ fewer)
      · intro failure failed inside
        obtain ⟨deeds, p, course, early, fails⟩ := course_of_failure loaded failed inside
        have count := iterations_of_stopping loaded journal course early (.inr ⟨failure, fails⟩)
        rw [count]
        refine ⟨Nat.succ_pos _, early, ?_, ?_⟩
        · intro limit enough
          exact run_of_fails_limited loaded journal course fails enough
        · intro limit fewer
          exact run_of_fewer loaded journal course (Nat.le_of_lt_succ fewer)

def printing : ByteArray :=
  ⟨#[0x0e, 0x02, 0x1e, 0x41, 0xcd, 0x05, 0x00, 0xc3, 0x00, 0x00]⟩

/-- A start at the address at which a run ends in every iteration but the first. -/
def fromZero : Configuration :=
  { Configuration.standard with loadAddress := 0, maxSteps := 5, memorySize := 16 }

/-- NOP, and HLT in the second iteration. -/
def stuck : ByteArray :=
  ⟨#[0x00, 0x76]⟩

theorem run_respects_limits_stuck :
    (run printing { fromZero with maxSteps := 700, memorySize := 17 } (Journal.opened none)).1 =
        .ok ⟨"A", 5, 24⟩ ∧
      (∃ address, (run printing { fromZero with maxSteps := 4 } (Journal.opened none)).1 =
        .error (.stepLimit 4 address)) ∧
      (run stuck { fromZero with maxSteps := 2 } (Journal.opened none)).1 =
        .error (.instruction 1 (some "HLT") (.unimplementedOpcode 0x76 1)) ∧
      ∃ address, (run stuck { fromZero with maxSteps := 1 } (Journal.opened none)).1 =
        .error (.stepLimit 1 address) := by
  have finished : (run printing fromZero (Journal.opened none)).1 = .ok ⟨"A", 5, 24⟩ := rfl
  have failed : (run stuck fromZero (Journal.opened none)).1 =
      .error (.instruction 1 (some "HLT") (.unimplementedOpcode 0x76 1)) := rfl
  have second : iterations stuck fromZero (Journal.opened none) = 2 := rfl
  obtain ⟨-, more, fewer⟩ := (run_respects_limits printing fromZero (Journal.opened none)).1
    _ finished
  obtain ⟨-, -, still, sooner⟩ := (run_respects_limits stuck fromZero (Journal.opened none)).2
    _ failed trivial
  rw [second] at still sooner
  exact ⟨more 700 17 (by decide) (by decide), fewer 4 (by decide), still 2 (by decide),
    sooner 1 (by decide)⟩

end Diagnostic

end Intel8080
