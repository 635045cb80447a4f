import Intel8080.Processor.Cost
import Intel8080.Proofs.Diagnostic.Iteration

/-!
# The course of a diagnostic run

A run is a course of iterations that went on, and it is over when one does not, or when the
steps are used up. The course says all that the report counts: an iteration costs what it
executed or prints what it called.
-/

namespace Intel8080

namespace Diagnostic

/-- The processor on which the program in `memory` starts: PC is the load address, SP is what
the configuration says or zero, and all else is as it is when the processor is switched on. -/
def initialProcessor (configuration : Configuration) (memory : Memory) : Processor Unit where
  core :=
    { Core.cleared with
      registers :=
        { Registers.cleared with
          pc := configuration.loadAddress
          sp := configuration.stackPointer.getD 0 } }
  memory
  ports := ⟨(), none, none⟩

/-- The iterations from the start have done `deeds`, and the next one finds `p`. -/
inductive Course (configuration : Configuration) (memory : Memory) :
    List Deed → Processor Unit → Prop where
  | start : Course configuration memory [] (initialProcessor configuration memory)
  | next {deeds : List Deed} {deed : Deed} {p q : Processor Unit}
      (course : Course configuration memory deeds p)
      (goesOn : verdict configuration deeds.isEmpty p = .goesOn deed q) :
      Course configuration memory (deeds ++ [deed]) q

/-- The costs of the instructions executed. -/
def costs (deeds : List Deed) : List Nat :=
  deeds.filterMap Deed.cost?

/-- The outputs of the console calls served. -/
def outputs (deeds : List Deed) : List String :=
  deeds.filterMap Deed.output?

section

variable (deeds : List Deed) (deed : Deed)

theorem costs_append : costs (deeds ++ [deed]) = costs deeds ++ deed.cost?.toList := by
  cases deed <;> simp [costs, Deed.cost?]

theorem outputs_append : outputs (deeds ++ [deed]) = outputs deeds ++ deed.output?.toList := by
  cases deed <;> simp [outputs, Deed.output?]

theorem length_costs_add_length_outputs :
    (costs deeds).length + (outputs deeds).length = deeds.length := by
  unfold costs outputs
  induction deeds with
  | nil => rfl
  | cons deed rest ih =>
      cases deed with
      | executed cost =>
          simp only [Deed.cost?, Deed.output?, List.filterMap_cons, List.length_cons]
          omega
      | called output =>
          simp only [Deed.cost?, Deed.output?, List.filterMap_cons, List.length_cons]
          omega

end

namespace Course

variable {configuration : Configuration} {memory : Memory} {deeds : List Deed} {p : Processor Unit}

/-! ## Invariants -/

theorem cost_bounds (h : Course configuration memory deeds p) :
    4 * (costs deeds).length ≤ (costs deeds).sum ∧
      (costs deeds).sum ≤ 18 * (costs deeds).length := by
  induction h with
  | start => simp [costs]
  | next _ goesOn ih =>
      rw [costs_append, List.length_append, List.sum_append]
      rcases goesOn_cases goesOn with ⟨output, rfl, -⟩ | ⟨cost, rfl, stepped⟩
      · simpa [Deed.cost?] using ih
      · have price := Processor.cost_of_step stepped
        simp only [Deed.cost?, Option.toList_some, List.length_singleton, List.sum_singleton]
        omega

/-- The cycles of a course fit into a word of 64 bits if it has at most an eighteenth as many
iterations. -/
theorem sum_costs_lt (h : Course configuration memory deeds p)
    (few : 18 * deeds.length < UInt64.size) : (costs deeds).sum < UInt64.size := by
  have counted := length_costs_add_length_outputs deeds
  have most := h.cost_bounds.2
  omega

theorem pendingInterrupt (h : Course configuration memory deeds p) :
    p.core.pendingInterrupt = none := by
  induction h with
  | start => rfl
  | next _ goesOn ih =>
      rcases goesOn_cases goesOn with ⟨output, -, rfl⟩ | ⟨cost, -, stepped⟩
      · exact ih
      · rw [Processor.pendingInterrupt_of_step stepped, ih]
        split <;> rfl

theorem acceptOrFetch (h : Course configuration memory deeds p) :
    Exec.acceptOrFetch p = Exec.fetch p :=
  Exec.acceptOrFetch_of_fetching (Core.acceptable_of_idle h.pendingInterrupt)

/-! ## Lasting -/

/-- Up to any number of iterations the run goes on, or there is a first iteration that does
not go on. -/
theorem lasts_or_stops (configuration : Configuration) (memory : Memory) (limit : Nat) :
    (∃ deeds p, Course configuration memory deeds p ∧ deeds.length = limit) ∨
      ∃ deeds p, Course configuration memory deeds p ∧ deeds.length < limit ∧
        (verdict configuration deeds.isEmpty p = .exits ∨
          ∃ failure, verdict configuration deeds.isEmpty p = .fails failure) := by
  induction limit with
  | zero => exact .inl ⟨[], _, .start, rfl⟩
  | succ limit ih =>
      rcases ih with ⟨deeds, p, course, lasted⟩ | ⟨deeds, p, course, early, stops⟩
      · cases verdict : verdict configuration deeds.isEmpty p with
        | exits => exact .inr ⟨deeds, p, course, by omega, .inl verdict⟩
        | fails failure => exact .inr ⟨deeds, p, course, by omega, .inr ⟨failure, verdict⟩⟩
        | goesOn deed q => exact .inl ⟨deeds ++ [deed], q, course.next verdict, by simp [lasted]⟩
      · exact .inr ⟨deeds, p, course, by omega, stops⟩

end Course

/-! ## Sessions -/

namespace Session

/-- A session at the start of the iteration after `deeds`, with the processor that it
finds. -/
structure Records (s : Session) (deeds : List Deed) (p : Processor Unit) : Prop where
  processor : s.cpu.processor = p
  steps : s.steps = deeds.length
  output : s.output = String.join (outputs deeds)
  cycles : s.cycles = (costs deeds).sum

variable {configuration : Configuration} {memory : Memory} {deeds : List Deed} {deed : Deed}
  {p q : Processor Unit} {s t : Session}

theorem Records.first (h : s.Records deeds p) : (s.steps == 0) = deeds.isEmpty := by
  rw [h.steps]
  cases deeds <;> rfl

theorem Records.after (h : s.Records deeds p) (after : s.After deed q t) :
    t.Records (deeds ++ [deed]) q where
  processor := after.processor
  steps := by rw [after.steps, h.steps, List.length_append, List.length_singleton]
  output := by
    rw [after.output, h.output, outputs_append, String.join_append]
    cases deed <;> simp [Deed.output?]
  cycles := by
    rw [after.cycles, h.cycles, costs_append, List.sum_append]
    cases deed <;> simp [Deed.cost?]

theorem run_of_course (begun : s.Records [] (initialProcessor configuration memory))
    (course : Course configuration memory deeds p) :
    ∃ t : Session, t.Records deeds p ∧
      ∀ remaining,
        s.run configuration (deeds.length + remaining) = t.run configuration remaining := by
  induction course with
  | start => exact ⟨s, begun, fun remaining => by rw [List.length_nil, Nat.zero_add]⟩
  | next _ goesOn ih =>
      obtain ⟨t, records, reached⟩ := ih
      rw [← records.first, ← records.processor] at goesOn
      obtain ⟨u, after, continues⟩ := run_of_goesOn goesOn
      refine ⟨u, records.after after, ?_⟩
      intro remaining
      rw [List.length_append, List.length_singleton, Nat.add_assoc, Nat.add_comm 1, reached,
        continues]

end Session

/-! ## Results -/

/-- The report of a run that exits in the iteration after `deeds`. -/
def reportAfter (deeds : List Deed) : Report where
  output := String.join (outputs deeds)
  steps := deeds.length + 1
  cycles := (costs deeds).sum

section

variable {program : ByteArray} {configuration : Configuration} {memory : Memory}
  {deeds : List Deed} {p : Processor Unit}

theorem records_started (program : ByteArray) (configuration : Configuration) (memory : Memory)
    (journal : Journal) :
    ((Session.start memory configuration journal).note
      (.programStarted program.size configuration.loadAddress)).Records []
        (initialProcessor configuration memory) :=
  ⟨rfl, rfl, rfl, rfl⟩

theorem exists_session (loaded : loadedMemory program configuration = .ok memory)
    (journal : Journal) :
    ∃ s : Session, s.Records [] (initialProcessor configuration memory) ∧
      (run program configuration journal).1 = (s.run configuration configuration.maxSteps).1 := by
  refine ⟨_, records_started program configuration memory journal, ?_⟩
  rw [run, loaded]

theorem run_of_unloaded {failure : Failure}
    (unloaded : loadedMemory program configuration = .error failure) (journal : Journal) :
    run program configuration journal = (.error failure, journal) := by
  rw [run, unloaded]

theorem run_of_course (loaded : loadedMemory program configuration = .ok memory)
    (journal : Journal) (course : Course configuration memory deeds p)
    (within : deeds.length ≤ configuration.maxSteps) :
    ∃ s : Session, s.Records deeds p ∧
      (run program configuration journal).1 =
        (s.run configuration (configuration.maxSteps - deeds.length)).1 := by
  obtain ⟨started, begun, same⟩ := exists_session loaded journal
  obtain ⟨s, records, reached⟩ := Session.run_of_course begun course
  refine ⟨s, records, ?_⟩
  rw [same, ← reached, Nat.add_sub_of_le within]

theorem run_of_exits (loaded : loadedMemory program configuration = .ok memory)
    (journal : Journal) (course : Course configuration memory deeds p)
    (early : deeds.length < configuration.maxSteps)
    (exits : verdict configuration deeds.isEmpty p = .exits) :
    (run program configuration journal).1 = .ok (reportAfter deeds) := by
  obtain ⟨s, records, same⟩ := run_of_course loaded journal course (Nat.le_of_lt early)
  obtain ⟨remaining, left⟩ := Nat.exists_eq_succ_of_ne_zero (Nat.sub_ne_zero_of_lt early)
  rw [← records.first, ← records.processor] at exits
  rw [same, left, Session.run_of_exits remaining exits, records.output, records.steps,
    records.cycles]
  rfl

theorem run_of_fails (loaded : loadedMemory program configuration = .ok memory)
    (journal : Journal) (course : Course configuration memory deeds p)
    (early : deeds.length < configuration.maxSteps) {failure : Failure}
    (fails : verdict configuration deeds.isEmpty p = .fails failure) :
    (run program configuration journal).1 = .error failure := by
  obtain ⟨s, records, same⟩ := run_of_course loaded journal course (Nat.le_of_lt early)
  obtain ⟨remaining, left⟩ := Nat.exists_eq_succ_of_ne_zero (Nat.sub_ne_zero_of_lt early)
  rw [← records.first, ← records.processor] at fails
  rw [same, left, Session.run_of_fails remaining fails]

theorem run_of_lasting (loaded : loadedMemory program configuration = .ok memory)
    (journal : Journal) (course : Course configuration memory deeds p)
    (lasted : deeds.length = configuration.maxSteps) :
    (run program configuration journal).1 =
      .error (.stepLimit configuration.maxSteps p.core.registers.pc) := by
  obtain ⟨s, records, same⟩ := run_of_course loaded journal course (Nat.le_of_eq lasted)
  rw [same, lasted, Nat.sub_self, ← records.processor]
  rfl

/-- The three ways in which a run can end, each with the course that leads there. -/
theorem run_cases (loaded : loadedMemory program configuration = .ok memory) (journal : Journal) :
    (∃ deeds p, Course configuration memory deeds p ∧ deeds.length = configuration.maxSteps ∧
      (run program configuration journal).1 =
        .error (.stepLimit configuration.maxSteps p.core.registers.pc)) ∨
    (∃ deeds p, Course configuration memory deeds p ∧ deeds.length < configuration.maxSteps ∧
      verdict configuration deeds.isEmpty p = .exits ∧
      (run program configuration journal).1 = .ok (reportAfter deeds)) ∨
    ∃ deeds p failure, Course configuration memory deeds p ∧
      deeds.length < configuration.maxSteps ∧
      verdict configuration deeds.isEmpty p = .fails failure ∧
      (run program configuration journal).1 = .error failure := by
  rcases Course.lasts_or_stops configuration memory configuration.maxSteps with
    ⟨deeds, p, course, lasted⟩ | ⟨deeds, p, course, early, exits | ⟨failure, fails⟩⟩
  · exact .inl ⟨deeds, p, course, lasted, run_of_lasting loaded journal course lasted⟩
  · exact .inr (.inl ⟨deeds, p, course, early, exits,
      run_of_exits loaded journal course early exits⟩)
  · exact .inr (.inr ⟨deeds, p, failure, course, early, fails,
      run_of_fails loaded journal course early fails⟩)

theorem run_of_verdict (loaded : loadedMemory program configuration = .ok memory)
    (journal : Journal) (course : Course configuration memory deeds p)
    (early : deeds.length < configuration.maxSteps) :
    match verdict configuration deeds.isEmpty p with
    | .exits => (run program configuration journal).1 = .ok (reportAfter deeds)
    | .fails failure => (run program configuration journal).1 = .error failure
    | .goesOn deed q => ∃ s : Session, s.Records (deeds ++ [deed]) q ∧
        (run program configuration journal).1 =
          (s.run configuration (configuration.maxSteps - (deeds.length + 1))).1 := by
  cases found : verdict configuration deeds.isEmpty p with
  | exits => exact run_of_exits loaded journal course early found
  | fails failure => exact run_of_fails loaded journal course early found
  | goesOn deed q =>
      have longer : (deeds ++ [deed]).length = deeds.length + 1 := List.length_append
      have within : (deeds ++ [deed]).length ≤ configuration.maxSteps := longer ▸ early
      have reached := run_of_course loaded journal (course.next found) within
      rwa [longer] at reached

theorem course_of_report (loaded : loadedMemory program configuration = .ok memory)
    {journal : Journal} {report : Report}
    (finished : (run program configuration journal).1 = .ok report) :
    ∃ deeds p, Course configuration memory deeds p ∧ deeds.length < configuration.maxSteps ∧
      verdict configuration deeds.isEmpty p = .exits ∧ report = reportAfter deeds := by
  rcases run_cases loaded journal with
    ⟨deeds, p, -, -, ended⟩ | ⟨deeds, p, course, early, exits, ended⟩ |
    ⟨deeds, p, failure, -, -, -, ended⟩
  · cases finished.symm.trans ended
  · cases finished.symm.trans ended
    exact ⟨deeds, p, course, early, exits, rfl⟩
  · cases finished.symm.trans ended

/-- The steps run out exactly if so many iterations go on. -/
theorem run_eq_stepLimit_iff (loaded : loadedMemory program configuration = .ok memory)
    (journal : Journal) (limit : Nat) (address : UInt16) :
    (run program configuration journal).1 = .error (.stepLimit limit address) ↔
      limit = configuration.maxSteps ∧
        ∃ deeds p, Course configuration memory deeds p ∧
          deeds.length = configuration.maxSteps ∧ p.core.registers.pc = address := by
  constructor
  · intro exhausted
    rcases run_cases loaded journal with
      ⟨deeds, p, course, lasted, ended⟩ | ⟨deeds, p, -, -, -, ended⟩ |
      ⟨deeds, p, failure, -, -, fails, ended⟩
    · cases exhausted.symm.trans ended
      exact ⟨rfl, deeds, p, course, lasted, rfl⟩
    · cases exhausted.symm.trans ended
    · cases exhausted.symm.trans ended
      exact (verdict_ne_stepLimit _ _ _ _ _ fails).elim
  · rintro ⟨rfl, deeds, p, course, lasted, rfl⟩
    exact run_of_lasting loaded journal course lasted

end

/-- A run is its course. It starts at the load address with the stack that is configured. Each
iteration within the limit finds the processor that the course says, with no request waiting,
and does what the rules say; a report counts the deeds of the course that led to the exit; the
cycles fit into 64 bits if eighteen times the limit does; and the steps run out exactly if so
many iterations went on. -/
theorem run_sound (program : ByteArray) (configuration : Configuration) (journal : Journal) :
    match loadedMemory program configuration with
    | .error failure => (run program configuration journal).1 = .error failure
    | .ok memory =>
        (∃ start, Course configuration memory [] start ∧
          start.core.registers.pc = configuration.loadAddress ∧
          start.core.registers.sp = configuration.stackPointer.getD 0 ∧
          start.memory = memory ∧
          ∃ s : Session, s.Records [] start ∧
            (run program configuration journal).1 =
              (s.run configuration configuration.maxSteps).1) ∧
        (∀ deeds p, Course configuration memory deeds p → deeds.length < configuration.maxSteps →
          p.core.pendingInterrupt = none ∧ Exec.acceptOrFetch p = Exec.fetch p ∧
          (∃ s : Session, s.Records deeds p ∧
            (run program configuration journal).1 =
              (s.run configuration (configuration.maxSteps - deeds.length)).1) ∧
          match verdict configuration deeds.isEmpty p with
          | .exits => (run program configuration journal).1 = .ok (reportAfter deeds)
          | .fails failure => (run program configuration journal).1 = .error failure
          | .goesOn deed q => ∃ s : Session, s.Records (deeds ++ [deed]) q ∧
              (run program configuration journal).1 =
                (s.run configuration (configuration.maxSteps - (deeds.length + 1))).1) ∧
        (∀ report, (run program configuration journal).1 = .ok report →
          ∃ deeds p, Course configuration memory deeds p ∧
            verdict configuration deeds.isEmpty p = .exits ∧
            report.steps = (costs deeds).length + (outputs deeds).length + 1 ∧
            report.steps ≤ configuration.maxSteps ∧
            report.cycles = (costs deeds).sum ∧
            4 * (costs deeds).length ≤ report.cycles ∧
            report.cycles ≤ 18 * (costs deeds).length ∧
            report.output = String.join (outputs deeds)) ∧
        (18 * configuration.maxSteps < UInt64.size →
          ∀ deeds p, Course configuration memory deeds p →
            deeds.length ≤ configuration.maxSteps → (costs deeds).sum < UInt64.size) ∧
        ∀ limit address,
          (run program configuration journal).1 = .error (.stepLimit limit address) ↔
            limit = configuration.maxSteps ∧
              ∃ deeds p, Course configuration memory deeds p ∧
                deeds.length = configuration.maxSteps ∧ p.core.registers.pc = address := by
  cases loaded : loadedMemory program configuration with
  | error failure => exact congrArg Prod.fst (run_of_unloaded loaded journal)
  | ok memory =>
      refine ⟨?_, ?_, ?_, ?_, run_eq_stepLimit_iff loaded journal⟩
      · exact ⟨_, .start, rfl, rfl, rfl, exists_session loaded journal⟩
      · intro deeds p course early
        exact ⟨course.pendingInterrupt, course.acceptOrFetch,
          run_of_course loaded journal course (Nat.le_of_lt early),
          run_of_verdict loaded journal course early⟩
      · intro report finished
        obtain ⟨deeds, p, course, early, exits, rfl⟩ := course_of_report loaded finished
        have steps : (reportAfter deeds).steps =
            (costs deeds).length + (outputs deeds).length + 1 := by
          rw [length_costs_add_length_outputs]
          rfl
        obtain ⟨least, most⟩ := course.cost_bounds
        exact ⟨deeds, p, course, exits, steps, early, rfl, least, most, rfl⟩
      · intro reachable deeds p course within
        exact course.sum_costs_lt (by omega)

/-- Prints an A and returns to the address on the stack. -/
def returning : ByteArray :=
  ⟨#[0x0e, 0x02, 0x1e, 0x41, 0xcd, 0x05, 0x00, 0xc9]⟩

/-- Loads at address four, below a stack that holds two zeros. -/
def fromFour : Configuration :=
  { Configuration.standard with
    loadAddress := 4
    stackPointer := some 14
    maxSteps := 5
    memorySize := 16 }

theorem run_sound_returning :
    ∃ memory, loadedMemory returning fromFour = .ok memory ∧
      (∃ start, Course fromFour memory [] start ∧ start.core.registers.pc = 4 ∧
        start.core.registers.sp = 14) ∧
      (run returning fromFour (Journal.opened none)).1 = .ok ⟨"A", 5, 24⟩ ∧
      ∃ deeds p, Course fromFour memory deeds p ∧
        verdict fromFour deeds.isEmpty p = .exits ∧
        (costs deeds).length + (outputs deeds).length = 4 ∧
        (costs deeds).sum = 24 ∧ (costs deeds).sum < UInt64.size ∧
        String.join (outputs deeds) = "A" := by
  obtain ⟨memory, loaded⟩ : ∃ memory, loadedMemory returning fromFour = .ok memory := ⟨_, rfl⟩
  have finished : (run returning fromFour (Journal.opened none)).1 = .ok ⟨"A", 5, 24⟩ := rfl
  have sound := run_sound returning fromFour (Journal.opened none)
  rw [loaded] at sound
  obtain ⟨⟨start, begun, pc, sp, -⟩, -, reports, inRange, -⟩ := sound
  obtain ⟨deeds, p, course, exits, steps, -, cycles, -, -, output⟩ := reports _ finished
  have count : (costs deeds).length + (outputs deeds).length = 4 := (Nat.succ.inj steps).symm
  have short : deeds.length ≤ fromFour.maxSteps := by
    rw [← length_costs_add_length_outputs, count]
    decide
  exact ⟨memory, loaded, ⟨start, begun, pc, sp⟩, finished, deeds, p, course, exits, count,
    cycles.symm, inRange (by decide) deeds p course short, output.symm⟩

end Diagnostic

end Intel8080
