import Intel8080.Proofs.Diagnostic.Limits
import Intel8080.Proofs.Diagnostic.Wording
import Intel8080.Proofs.Execution.Blame

/-!
# Fault reports

A diagnostic run that fails on an instruction reports the address and the text of it after the
step has failed. Both are right since a step that fails leaves everything as it was. What cannot
be read before the step is no fault of the processor, and is reported as what it is.
-/

namespace Intel8080

/-! ## The end of a journal -/

namespace Journal

variable {journal : Journal} {notice : Notice}

theorem threshold_record (journal : Journal) (notices : Unit → List Notice) :
    (journal.record notices).threshold = journal.threshold := by
  unfold record
  split <;> rfl

theorem threshold_note (journal : Journal) (notice : Notice) :
    (journal.note notice).threshold = journal.threshold :=
  threshold_record journal _

theorem back?_note_of_warn (kept : journal.threshold.isSome) (warns : notice.level = .warn) :
    (journal.note notice).entries.back? = some notice := by
  have keeps : journal.keeps notice.level = true := by
    obtain ⟨threshold, given⟩ := Option.isSome_iff_exists.mp kept
    rw [warns, keeps, given]
    exact decide_eq_true (Nat.zero_le _)
  have filtered : [notice].filter (fun n => journal.keeps n.level) = [notice] :=
    List.filter_cons_of_pos keeps
  rw [note, record, if_pos kept, filtered]
  exact Array.back?_push

end Journal

namespace Diagnostic

namespace Session

variable {configuration : Configuration} {s t : Session}

theorem threshold_serveConsole {textOffset : UInt16}
    (served : s.serveConsole textOffset = .ok t) :
    t.cpu.journal.threshold = s.cpu.journal.threshold := by
  simp only [serveConsole] at served
  cases printed : consoleOutput s.core.registers s.memory textOffset with
  | error failure =>
      rw [printed] at served
      cases served
  | ok text =>
      rw [printed] at served
      cases served
      cases ConsoleFunction.ofNumber s.core.registers.c with
      | other number => exact s.cpu.journal.threshold_note _
      | _ => rfl

theorem threshold_executeNext (s : Session) :
    s.executeNext.2.cpu.journal.threshold = s.cpu.journal.threshold := by
  obtain ⟨⟨p, journal, remark⟩, output, steps, cycles⟩ := s
  simp only [executeNext, Monitor.step]
  cases p.step with
  | mk outcome next =>
      cases outcome with
      | ok cost => exact journal.threshold_record _
      | error fault => exact (Journal.threshold_note _ _).trans (journal.threshold_record _)

theorem threshold_run (configuration : Configuration) (remaining : Nat) (s : Session) :
    (s.run configuration remaining).2.cpu.journal.threshold = s.cpu.journal.threshold := by
  induction remaining generalizing s with
  | zero => exact s.cpu.journal.threshold_note _
  | succ remaining ih =>
      rw [run_succ]
      cases s.begun.decide with
      | error access => rfl
      | ok decision =>
          cases decision with
          | exit => exact s.cpu.journal.threshold_note _
          | console =>
              cases served : s.begun.serveConsole configuration.textOffset with
              | error failure => rfl
              | ok t =>
                  have kept : t.cpu.journal.threshold = s.begun.cpu.journal.threshold :=
                    threshold_serveConsole served
                  exact (ih t).trans kept
          | execute =>
              have kept := s.begun.threshold_executeNext
              cases executed : s.begun.executeNext with
              | mk failed t =>
                  rw [executed] at kept
                  cases failed with
                  | some failure => exact kept
                  | none => exact (ih t).trans kept

/-- A run that fails on an instruction has noted the fault last. -/
theorem exists_journal_of_fault {address : UInt16} {text : Option String} {fault : Fault}
    (remaining : Nat) (h : verdict configuration (s.steps == 0) s.cpu.processor =
      .fails (.instruction address text fault)) :
    ∃ journal : Journal, (s.run configuration (remaining + 1)).2.cpu.journal =
      journal.note (.programFaulted fault s.cpu.processor.core) := by
  rw [verdict_eq] at h
  rw [run_succ]
  cases decided : s.begun.decide with
  | error access =>
      rw [decided] at h
      cases h
  | ok decision =>
      rw [decided] at h
      cases decision with
      | exit => cases h
      | console =>
          obtain ⟨textFailure, is⟩ := fails_of_serve h
          cases is
      | execute =>
          obtain ⟨⟨p, journal, remark⟩, output, steps, cycles⟩ := s
          obtain ⟨fault, stepped, is⟩ := fails_of_execute h
          cases is
          simp only [begun, executeNext, Monitor.step, stepped]
          exact ⟨_, rfl⟩

end Session

/-! ## Instructions that a run comes to -/

theorem Course.bare {configuration : Configuration} {memory : Memory} {deeds : List Deed}
    {p : Processor Unit} (h : Course configuration memory deeds p) :
    p.ports.input = none ∧ p.ports.output = none := by
  induction h with
  | start => exact ⟨rfl, rfl⟩
  | @next deeds deed p q _ goesOn ih =>
      rcases goesOn_cases goesOn with ⟨output, -, rfl⟩ | ⟨cost, -, stepped⟩
      · exact ih
      · obtain ⟨operation, -, -, rfl⟩ := Processor.exists_operation_of_step stepped
        obtain ⟨input, output⟩ := operation.handlers_meaning p.prepared
        rw [input, output, Processor.prepared_ports]
        exact ih

/-- An iteration that the steps last for finds `p`, and the run has not come back to address
zero. -/
def Reaches (program : ByteArray) (configuration : Configuration) (p : Processor Unit) : Prop :=
  ∃ memory deeds, loadedMemory program configuration = .ok memory ∧
    Course configuration memory deeds p ∧ deeds.length < configuration.maxSteps ∧
    ¬ (p.core.registers.pc = 0 ∧ deeds.isEmpty = false)

namespace Reaches

variable {program : ByteArray} {configuration : Configuration} {p : Processor Unit}

theorem fetching (h : Reaches program configuration p) : p.core.acceptable = none := by
  obtain ⟨memory, deeds, -, course, -⟩ := h
  exact Core.acceptable_of_idle course.pendingInterrupt

theorem bare (h : Reaches program configuration p) :
    p.ports.input = none ∧ p.ports.output = none := by
  obtain ⟨memory, deeds, -, course, -⟩ := h
  exact course.bare

theorem run_of_outside (h : Reaches program configuration p) (journal : Journal)
    {access : OutOfBounds} (outside : p.memory.firstOutside? (inspected p) = some access) :
    (run program configuration journal).1 = .error (.unreadable access) := by
  obtain ⟨memory, deeds, loaded, course, early, away⟩ := h
  refine run_of_fails loaded journal course early ?_
  rw [verdict, if_neg away, outside]

theorem run_of_stepFault? (h : Reaches program configuration p) (journal : Journal)
    {fault : Fault} (found : p.core.registers.pc.toNat < p.memory.capacity)
    (plain : p.peek p.core.registers.pc ≠ callOpcode) (failed : p.stepFault? = some fault) :
    (run program configuration journal).1 = .error (.instruction p.core.registers.pc
      ((p.memory.disassemble p.core.registers.pc).toOption.map Disassembly.text) fault) := by
  obtain ⟨memory, deeds, loaded, course, early, away⟩ := h
  have inside : p.memory.firstOutside? (inspected p) = none := by
    rw [inspected, if_neg plain, Memory.firstOutside?_cons_of_lt _ found]
    rfl
  have other : ∀ low high, ¬ CallsAt p low high := fun low high calls => plain calls.1
  refine run_of_fails loaded journal course early ?_
  rw [verdict, if_neg away, inside]
  simp only [if_neg (other _ _)]
  rw [executeVerdict, Processor.step_of_stepFault? failed]

end Reaches

theorem step_of_verdict {configuration : Configuration} {first : Bool} {p : Processor Unit}
    {address : UInt16} {text : Option String} {fault : Fault}
    (h : verdict configuration first p = .fails (.instruction address text fault)) :
    ¬ (p.core.registers.pc = 0 ∧ first = false) ∧ p.memory.firstOutside? (inspected p) = none ∧
      p.core.registers.pc = address ∧ p.step = (.error fault, p) ∧
      text = (p.memory.disassemble address).toOption.map Disassembly.text := by
  obtain ⟨access, is⟩ | ⟨textFailure, is⟩ | ⟨fault, is, away, inside, stepped⟩ := fails_cases h
  · cases is
  · cases is
  · cases is
    exact ⟨away, inside, rfl, stepped, rfl⟩

/-- A failed instruction is one that the run has come to, and the last that the journal tells of
is the fault, on the processor that the step found. -/
theorem exists_reached_of_fault {program : ByteArray} {configuration : Configuration}
    {journal : Journal} {address : UInt16} {text : Option String} {fault : Fault}
    (ended : (run program configuration journal).1 = .error (.instruction address text fault)) :
    ∃ p, Reaches program configuration p ∧ p.core.registers.pc = address ∧
      p.step = (.error fault, p) ∧ p.memory.firstOutside? (inspected p) = none ∧
      text = (p.memory.disassemble address).toOption.map Disassembly.text ∧
      ∃ before : Journal, (run program configuration journal).2 =
        before.note (.programFaulted fault p.core) := by
  cases loaded : loadedMemory program configuration with
  | error failure =>
      rw [run_of_unloaded loaded] at ended
      cases ended
      exact absurd trivial (not_endsIteration_of_unloaded loaded)
  | ok memory =>
      obtain ⟨deeds, p, course, early, fails⟩ := course_of_failure loaded ended trivial
      obtain ⟨away, inside, here, stepped, shown⟩ := step_of_verdict fails
      refine ⟨p, ⟨memory, deeds, loaded, course, early, away⟩, here, stepped, inside, shown, ?_⟩
      have begun := records_started program configuration memory journal
      obtain ⟨s, records, reached⟩ := Session.run_of_course begun course
      obtain ⟨remaining, left⟩ := Nat.exists_eq_add_of_lt early
      rw [← records.first, ← records.processor] at fails
      obtain ⟨before, noted⟩ := Session.exists_journal_of_fault remaining fails
      refine ⟨before, ?_⟩
      rw [← records.processor, ← noted, run, loaded, left, Nat.add_assoc]
      exact congrArg (fun ended => ended.2.cpu.journal) (reached (remaining + 1))

theorem threshold_run (program : ByteArray) (configuration : Configuration) (journal : Journal) :
    (run program configuration journal).2.threshold = journal.threshold := by
  cases loaded : loadedMemory program configuration with
  | error failure => rw [run_of_unloaded loaded]
  | ok memory =>
      rw [run, loaded]
      exact (Session.threshold_run configuration _ _).trans (journal.threshold_note _)

/-! ## Reports -/

theorem exists_disassembly_of_call {p : Processor Unit}
    (inside : p.memory.firstOutside? (inspected p) = none)
    (calls : p.peek p.core.registers.pc = callOpcode) :
    ∃ shown, p.memory.disassemble p.core.registers.pc = .ok shown := by
  have same : p.instructionAddresses = inspected p := by
    rw [Processor.instructionAddresses, Processor.instructionLength, calls, inspected,
      if_pos calls]
    rfl
  exact ⟨_, by rw [Processor.disassemble_eq, same, inside]⟩

/-- The report of a fault: the failing step, the cause below the message, what the text says of
the instruction, and the warning with the registers as the step found them. -/
structure Reports (p : Processor Unit) (fault : Fault) (failure : Failure) (text : String)
    (journal : Journal) : Prop where
  failed : p.step = (.error fault, p)
  cause : failure.cause? = some fault.message
  blames : p.Blames fault text
  /-- The operand of a CALL has been inspected before the step. -/
  plain : text = "??" → p.peek p.core.registers.pc ≠ callOpcode
  warned : journal.threshold.isSome → ∃ notice before after,
    journal.entries.back? = some notice ∧
      notice.line = s!"WARN diagnostic stopped: {fault.message} ({p.core.dump})" ∧
      p.core.dump = before ++ s!" PC: {Hex.word p.core.registers.pc} SP: " ++ after

/-- A run that fails with the message of a CPU fault has come to an instruction at the address
that the message names, and reports its fault. Without devices every port access that is reached
fails, on its port or on the byte that should name it. What an iteration cannot inspect is
reported as the memory error that it is. -/
theorem fault_reports_name_the_instruction (program : ByteArray) (configuration : Configuration)
    (journal : Journal) :
    (∀ failure address text, (run program configuration journal).1 = .error failure →
      failure.message = faultMessage address text →
      ∃ p fault, Reaches program configuration p ∧ p.core.registers.pc = address ∧
        Reports p fault failure text (run program configuration journal).2) ∧
    (∀ p (direction : PortDirection), Reaches program configuration p →
      p.memory.byte? p.core.registers.pc.toNat = some direction.opcode →
      ∃ text fault, (run program configuration journal).1 =
          .error (.instruction p.core.registers.pc text fault) ∧
        (∀ port, p.memory.byte? (p.core.registers.pc + 1).toNat = some port →
          fault = .missingPortHandler direction port) ∧
        (p.memory.byte? (p.core.registers.pc + 1).toNat = none →
          fault = .outOfBounds
            ⟨(p.core.registers.pc + 1).toNat, 1, p.memory.capacity⟩ ∧ text = none)) ∧
    ∀ p access, Reaches program configuration p →
      p.memory.firstOutside? (inspected p) = some access →
      ∃ failure, (run program configuration journal).1 = .error failure ∧
        failure.message = access.message ∧ failure.cause? = none ∧
        ∀ address text, failure.message ≠ faultMessage address text := by
  refine ⟨?_, ?_, ?_⟩
  · intro failure address text ended message
    obtain ⟨disassembly, fault, rfl, rfl⟩ := Failure.message_eq_faultMessage_iff.mp message
    obtain ⟨p, reaches, rfl, stepped, inside, rfl, before, noted⟩ := exists_reached_of_fault ended
    have found := Memory.firstOutside?_eq_none_iff.mp inside _ (pc_mem_inspected p)
    have failing : p.stepFault? = some fault := Processor.step_error_iff.mp (by rw [stepped])
    refine ⟨p, fault, reaches, rfl, stepped, rfl,
      Processor.blames_of_stepFault? reaches.fetching found failing, ?_, ?_⟩
    · intro unknown calls
      obtain ⟨shown, displayed⟩ := exists_disassembly_of_call inside calls
      rw [displayed] at unknown
      exact Processor.text_ne_unknown displayed unknown
    · intro kept
      obtain ⟨front, back, dumped⟩ := p.core.exists_pc_in_dump
      rw [threshold_run] at kept
      have threshold : before.threshold = journal.threshold := by
        rw [← threshold_run program configuration journal, noted, before.threshold_note]
      rw [noted]
      exact ⟨_, front, back, Journal.back?_note_of_warn (threshold ▸ kept) rfl, rfl, dumped⟩
  · intro p direction reaches held
    have opcode : p.peek p.core.registers.pc = direction.opcode := Memory.byteAt_of_byte? held
    have plain : p.peek p.core.registers.pc ≠ callOpcode := by
      rw [opcode]
      cases direction <;> decide
    have failing := Processor.stepFault?_of_port reaches.fetching reaches.bare held
    refine ⟨_, _, reaches.run_of_stepFault? journal (Memory.lt_of_byte? held) plain failing,
      ?_, ?_⟩
    · intro port operand
      rw [operand]
    · intro missing
      have outside := Memory.firstOutside?_cons_of_ge [] (Memory.byte?_eq_none_iff.mp missing)
      refine ⟨by rw [missing], ?_⟩
      rw [Processor.disassemble_eq, Processor.instructionAddresses_of_port opcode,
        Memory.firstOutside?_cons_of_lt _ (Memory.lt_of_byte? held), outside]
      rfl
  · intro p access reaches outside
    refine ⟨.unreadable access, reaches.run_of_outside journal outside, rfl, rfl, ?_⟩
    intro address text same
    obtain ⟨disassembly, fault, is, -⟩ := Failure.message_eq_faultMessage_iff.mp same
    cases is

def listening : ByteArray :=
  ⟨#[0xdb, 0x07, 0xc9]⟩

/-- Where there is a port the device is missing, and in a memory that ends with the opcode the
port is. -/
theorem fault_reports_name_the_instruction_listening :
    (∃ p fault, Reaches listening fromZero p ∧ p.core.registers.pc = 0 ∧
      Reports p fault (.instruction 0 (some "IN $07") (.missingPortHandler .read 0x07)) "IN $07"
        (run listening fromZero (Journal.opened (some .warn))).2) ∧
      ∃ p fault, Reaches ⟨#[0xdb]⟩ { fromZero with memorySize := 1 } p ∧
        p.core.registers.pc = 0 ∧
        Reports p fault (.instruction 0 none (.outOfBounds ⟨1, 1, 1⟩)) "??"
          (run ⟨#[0xdb]⟩ { fromZero with memorySize := 1 } (Journal.opened none)).2 := by
  obtain ⟨named, -, -⟩ :=
    fault_reports_name_the_instruction listening fromZero (Journal.opened (some .warn))
  obtain ⟨unnamed, -, -⟩ := fault_reports_name_the_instruction ⟨#[0xdb]⟩
    { fromZero with memorySize := 1 } (Journal.opened none)
  exact ⟨named _ 0 "IN $07" rfl rfl, unnamed _ 0 "??" rfl rfl⟩

end Diagnostic

end Intel8080
