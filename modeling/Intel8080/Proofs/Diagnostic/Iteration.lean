import Intel8080.Diagnostic.Basic
import Intel8080.Proofs.Interrupts.Acceptance

/-!
# One iteration of a diagnostic run

The rules by which a diagnostic program is run, on the bare processor and the bytes at PC.
An iteration ends the run, or fails, or leaves a processor for the next one, and then it has
either executed one instruction or served one console call. Running a session for one more
step is the same as applying the rules once.
-/

namespace Intel8080

namespace Diagnostic

/-! ## The rules -/

/-- What an iteration has done that did not end the run. -/
inductive Deed where
  | executed (cost : Nat)
  | called (output : String)
  deriving DecidableEq

namespace Deed

def cost? : Deed → Option Nat
  | executed cost => some cost
  | called _ => none

def output? : Deed → Option String
  | executed _ => none
  | called output => some output

end Deed

inductive Verdict where
  | exits
  | fails (failure : Failure)
  | goesOn (deed : Deed) (next : Processor Unit)

/-- The bytes that an iteration looks at before it does anything: the opcode at PC, and
the operand bytes of a CALL. -/
def inspected (p : Processor Unit) : List UInt16 :=
  let pc := p.core.registers.pc
  if p.peek pc = callOpcode then [pc, pc + 1, pc + 2] else [pc]

/-- The instruction at PC is a CALL with these operand bytes. -/
def CallsAt (p : Processor Unit) (low high : UInt8) : Prop :=
  let pc := p.core.registers.pc
  p.peek pc = callOpcode ∧ p.peek (pc + 1) = low ∧ p.peek (pc + 2) = high

instance (p : Processor Unit) (low high : UInt8) : Decidable (CallsAt p low high) :=
  inferInstanceAs (Decidable (_ ∧ _ ∧ _))

def serveVerdict (configuration : Configuration) (p : Processor Unit) : Verdict :=
  match consoleOutput p.core.registers p.memory configuration.textOffset with
  | .ok output => .goesOn (.called output) (p.jump (p.core.registers.pc + 3))
  | .error failure => .fails (.text failure)

def executeVerdict (p : Processor Unit) : Verdict :=
  let pc := p.core.registers.pc
  match p.step with
  | (.ok cost, next) => .goesOn (.executed cost) next
  | (.error fault, _) =>
      .fails (.instruction pc ((p.memory.disassemble pc).toOption.map Disassembly.text) fault)

/-- What an iteration does, the first one or a later one, that finds the processor `p`. -/
def verdict (configuration : Configuration) (first : Bool) (p : Processor Unit) : Verdict :=
  if p.core.registers.pc = 0 ∧ first = false then
    .exits
  else
    match p.memory.firstOutside? (inspected p) with
    | some access => .fails (.unreadable access)
    | none =>
        if CallsAt p 0x00 0x00 then .exits
        else if CallsAt p 0x05 0x00 then serveVerdict configuration p
        else executeVerdict p

theorem verdict_cases (configuration : Configuration) (first : Bool) (p : Processor Unit) :
    verdict configuration first p = .exits ∨
      (∃ access, verdict configuration first p = .fails (.unreadable access)) ∨
      ¬ (p.core.registers.pc = 0 ∧ first = false) ∧ p.memory.firstOutside? (inspected p) = none ∧
        (verdict configuration first p = serveVerdict configuration p ∨
          verdict configuration first p = executeVerdict p) := by
  unfold verdict
  split
  · exact .inl rfl
  · next away =>
      split
      · exact .inr (.inl ⟨_, rfl⟩)
      · next inside =>
          split
          · exact .inl rfl
          · refine .inr (.inr ⟨away, inside, ?_⟩)
            split
            · exact .inl rfl
            · exact .inr rfl

theorem goesOn_of_serve {configuration : Configuration} {p q : Processor Unit} {deed : Deed}
    (h : serveVerdict configuration p = .goesOn deed q) :
    ∃ output, deed = .called output ∧ q = p.jump (p.core.registers.pc + 3) ∧
      consoleOutput p.core.registers p.memory configuration.textOffset = .ok output := by
  unfold serveVerdict at h
  cases printed : consoleOutput p.core.registers p.memory configuration.textOffset with
  | error failure =>
      rw [printed] at h
      cases h
  | ok output =>
      rw [printed] at h
      cases h
      exact ⟨output, rfl, rfl, rfl⟩

theorem goesOn_of_execute {p q : Processor Unit} {deed : Deed}
    (h : executeVerdict p = .goesOn deed q) :
    ∃ cost, deed = .executed cost ∧ p.step = (.ok cost, q) := by
  unfold executeVerdict at h
  cases stepped : p.step with
  | mk outcome next =>
      cases outcome with
      | error fault =>
          rw [stepped] at h
          cases h
      | ok cost =>
          rw [stepped] at h
          cases h
          exact ⟨cost, rfl, rfl⟩

theorem fails_of_serve {configuration : Configuration} {p : Processor Unit} {failure : Failure}
    (h : serveVerdict configuration p = .fails failure) :
    ∃ textFailure, failure = .text textFailure := by
  unfold serveVerdict at h
  split at h
  · cases h
  · cases h
    exact ⟨_, rfl⟩

theorem fails_of_execute {p : Processor Unit} {failure : Failure}
    (h : executeVerdict p = .fails failure) :
    ∃ fault, p.step = (.error fault, p) ∧ failure = .instruction p.core.registers.pc
      ((p.memory.disassemble p.core.registers.pc).toOption.map Disassembly.text) fault := by
  simp only [executeVerdict] at h
  cases stepped : p.step with
  | mk outcome next =>
      rw [stepped] at h
      cases outcome with
      | ok cost => cases h
      | error fault =>
          cases h
          rw [Processor.eq_of_step_error stepped]
          exact ⟨fault, rfl, rfl⟩

/-- What an iteration that goes on has done: it has served the call at PC, or executed the
instruction there. -/
theorem goesOn_cases {configuration : Configuration} {first : Bool} {p q : Processor Unit}
    {deed : Deed} (h : verdict configuration first p = .goesOn deed q) :
    (∃ output, deed = .called output ∧ q = p.jump (p.core.registers.pc + 3)) ∨
      ∃ cost, deed = .executed cost ∧ p.step = (.ok cost, q) := by
  rcases verdict_cases configuration first p with exits | ⟨access, fails⟩ |
    ⟨-, -, serves | executes⟩
  · rw [exits] at h
    cases h
  · rw [fails] at h
    cases h
  · obtain ⟨output, called, jumped, -⟩ := goesOn_of_serve (serves.symm.trans h)
    exact .inl ⟨output, called, jumped⟩
  · exact .inr (goesOn_of_execute (executes.symm.trans h))

/-- What an iteration has failed on: a byte that it inspects, the text of a console call, or the
instruction at PC. -/
theorem fails_cases {configuration : Configuration} {first : Bool} {p : Processor Unit}
    {failure : Failure} (h : verdict configuration first p = .fails failure) :
    (∃ access, failure = .unreadable access) ∨ (∃ textFailure, failure = .text textFailure) ∨
      ∃ fault, failure = .instruction p.core.registers.pc
          ((p.memory.disassemble p.core.registers.pc).toOption.map Disassembly.text) fault ∧
        ¬ (p.core.registers.pc = 0 ∧ first = false) ∧
        p.memory.firstOutside? (inspected p) = none ∧ p.step = (.error fault, p) := by
  rcases verdict_cases configuration first p with exits | ⟨access, fails⟩ |
    ⟨away, inside, serves | executes⟩
  · rw [exits] at h
    cases h
  · rw [fails] at h
    cases h
    exact .inl ⟨access, rfl⟩
  · exact .inr (.inl (fails_of_serve (serves.symm.trans h)))
  · obtain ⟨fault, stepped, failed⟩ := fails_of_execute (executes.symm.trans h)
    exact .inr (.inr ⟨fault, failed, away, inside, stepped⟩)

theorem verdict_ne_stepLimit (configuration : Configuration) (first : Bool) (p : Processor Unit)
    (limit : Nat) (address : UInt16) :
    verdict configuration first p ≠ .fails (.stepLimit limit address) := by
  intro h
  obtain ⟨access, is⟩ | ⟨textFailure, is⟩ | ⟨fault, is, -⟩ := fails_cases h <;> cases is

/-! ## Inspection -/

theorem joinBytes_eq_iff {high low : UInt8} {word : UInt16} :
    joinBytes high low = word ↔ low = lowByte word ∧ high = highByte word := by
  constructor
  · rintro rfl
    simp
  · rintro ⟨rfl, rfl⟩
    simp

theorem callTarget_eq (p : Processor Unit) :
    callTarget p.memory p.core.registers.pc =
      match p.memory.firstOutside? (inspected p) with
      | some access => .error access
      | none =>
          .ok (if p.peek p.core.registers.pc = callOpcode then
            some (joinBytes (p.peek (p.core.registers.pc + 2)) (p.peek (p.core.registers.pc + 1)))
          else none) := by
  rw [callTarget, Memory.read_eq]
  by_cases calling : p.peek p.core.registers.pc = callOpcode
  · have opcode : p.memory.byteAt p.core.registers.pc = callOpcode := calling
    have split : inspected p = [p.core.registers.pc] ++
        ([p.core.registers.pc + 1] ++ [p.core.registers.pc + 2]) := if_pos calling
    rw [split, Memory.firstOutside?_append, Memory.firstOutside?_append, if_pos calling]
    cases p.memory.firstOutside? [p.core.registers.pc] with
    | some access => rfl
    | none =>
        simp only [bind, Except.bind, opcode, if_true, Memory.read_eq]
        cases p.memory.firstOutside? [p.core.registers.pc + 1] with
        | some access => rfl
        | none => cases p.memory.firstOutside? [p.core.registers.pc + 2] <;> rfl
  · have opcode : ¬ p.memory.byteAt p.core.registers.pc = callOpcode := calling
    have single : inspected p = [p.core.registers.pc] := if_neg calling
    rw [single, if_neg calling]
    cases p.memory.firstOutside? [p.core.registers.pc] with
    | some access => rfl
    | none =>
        simp only [bind, Except.bind, opcode, if_false]
        rfl

namespace Session

theorem decide_eq (cpu : Monitor Unit) (output : String) (steps cycles : Nat) :
    decide ⟨cpu, output, steps, cycles⟩ =
      if cpu.processor.core.registers.pc = 0 ∧ 1 < steps then .ok .exit
      else
        match cpu.processor.memory.firstOutside? (inspected cpu.processor) with
        | some access => .error access
        | none =>
            .ok (if CallsAt cpu.processor 0x00 0x00 then .exit
              else if CallsAt cpu.processor 0x05 0x00 then .console
              else .execute) := by
  simp only [decide, core, memory, callTarget_eq]
  by_cases home : cpu.processor.core.registers.pc = 0 ∧ 1 < steps
  · rw [if_pos home, if_pos home]
    rfl
  · rw [if_neg home, if_neg home]
    cases cpu.processor.memory.firstOutside? (inspected cpu.processor) with
    | some access => rfl
    | none =>
        have exits {high low : UInt8} : joinBytes high low = 0 ↔ low = 0x00 ∧ high = 0x00 :=
          joinBytes_eq_iff
        have calls {high low : UInt8} :
            joinBytes high low = consoleEntry ↔ low = 0x05 ∧ high = 0x00 := joinBytes_eq_iff
        by_cases calling : cpu.processor.peek cpu.processor.core.registers.pc = callOpcode
        · simp only [CallsAt, calling, true_and, if_true, bind, Except.bind, exits, calls]
          split
          · rfl
          · split <;> rfl
        · simp only [CallsAt, calling, false_and, if_false]
          rfl

/-! ## One more step -/

def begun (s : Session) : Session :=
  { s with steps := s.steps + 1 }

theorem verdict_eq (configuration : Configuration) (s : Session) :
    verdict configuration (s.steps == 0) s.cpu.processor =
      match s.begun.decide with
      | .error access => .fails (.unreadable access)
      | .ok .exit => .exits
      | .ok .console => serveVerdict configuration s.cpu.processor
      | .ok .execute => executeVerdict s.cpu.processor := by
  have later : (s.steps == 0) = false ↔ 1 < s.steps + 1 := by
    rw [beq_eq_false_iff_ne]
    omega
  rw [begun, decide_eq, verdict]
  by_cases home : s.cpu.processor.core.registers.pc = 0 ∧ 1 < s.steps + 1
  · rw [if_pos home, if_pos ⟨home.1, later.mpr home.2⟩]
  · have away : ¬ (s.cpu.processor.core.registers.pc = 0 ∧ (s.steps == 0) = false) :=
      fun both => home ⟨both.1, later.mp both.2⟩
    rw [if_neg home, if_neg away]
    cases s.cpu.processor.memory.firstOutside? (inspected s.cpu.processor) with
    | some access => rfl
    | none =>
        by_cases exits : CallsAt s.cpu.processor 0x00 0x00
        · simp only [if_pos exits]
        · by_cases calls : CallsAt s.cpu.processor 0x05 0x00
          · simp only [if_neg exits, if_pos calls]
          · simp only [if_neg exits, if_neg calls]

/-- What a session has become after an iteration that did `deed` and left `next`. -/
structure After (s : Session) (deed : Deed) (next : Processor Unit) (t : Session) : Prop where
  processor : t.cpu.processor = next
  steps : t.steps = s.steps + 1
  output : t.output = s.output ++ deed.output?.getD ""
  cycles : t.cycles = s.cycles + deed.cost?.getD 0

theorem serveConsole_follows (s : Session) (configuration : Configuration) :
    match serveVerdict configuration s.cpu.processor with
    | .exits => False
    | .fails failure => ∃ cause, failure = .text cause ∧
        s.begun.serveConsole configuration.textOffset = .error cause
    | .goesOn deed next => ∃ t, s.After deed next t ∧
        s.begun.serveConsole configuration.textOffset = .ok t := by
  simp only [serveVerdict, serveConsole, core, memory, begun]
  cases consoleOutput s.cpu.processor.core.registers s.cpu.processor.memory
      configuration.textOffset with
  | error cause => exact ⟨cause, rfl, rfl⟩
  | ok output =>
      refine ⟨_, ?_, rfl⟩
      cases ConsoleFunction.ofNumber s.cpu.processor.core.registers.c <;>
        exact ⟨rfl, rfl, rfl, rfl⟩

theorem executeNext_follows (s : Session) :
    match executeVerdict s.cpu.processor with
    | .exits => False
    | .fails failure => s.begun.executeNext.1 = some failure
    | .goesOn deed next => ∃ t, s.After deed next t ∧ s.begun.executeNext = (none, t) := by
  obtain ⟨⟨p, journal, remark⟩, output, steps, cycles⟩ := s
  simp only [executeVerdict, begun, executeNext, Monitor.step]
  cases stepped : p.step with
  | mk outcome next =>
      cases outcome with
      | ok cost =>
          refine ⟨_, ?_, rfl⟩
          exact ⟨rfl, rfl, String.append_empty.symm, rfl⟩
      | error fault =>
          rw [Processor.eq_of_step_error stepped]

theorem run_succ (configuration : Configuration) (s : Session) (remaining : Nat) :
    s.run configuration (remaining + 1) =
      match s.begun.decide with
      | .error access => (.error (.unreadable access), s.begun)
      | .ok .exit =>
          (.ok ⟨s.output, s.steps + 1, s.cycles⟩,
            s.begun.note (.programExited (s.steps + 1) s.cycles))
      | .ok .console =>
          match s.begun.serveConsole configuration.textOffset with
          | .error failure => (.error (.text failure), s.begun)
          | .ok t => t.run configuration remaining
      | .ok .execute =>
          match s.begun.executeNext with
          | (some failure, t) => (.error failure, t)
          | (none, t) => t.run configuration remaining := rfl

/-- A session that has a step left follows the rules once. -/
theorem run_follows (configuration : Configuration) (s : Session) :
    match verdict configuration (s.steps == 0) s.cpu.processor with
    | .exits => ∀ remaining,
        (s.run configuration (remaining + 1)).1 = .ok ⟨s.output, s.steps + 1, s.cycles⟩
    | .fails failure => ∀ remaining, (s.run configuration (remaining + 1)).1 = .error failure
    | .goesOn deed next => ∃ t, s.After deed next t ∧
        ∀ remaining, s.run configuration (remaining + 1) = t.run configuration remaining := by
  simp only [verdict_eq, run_succ]
  cases s.begun.decide with
  | error access => exact fun _ => rfl
  | ok decision =>
      cases decision with
      | exit => exact fun _ => rfl
      | console =>
          have served := s.serveConsole_follows configuration
          cases verdict : serveVerdict configuration s.cpu.processor with
          | exits =>
              rw [verdict] at served
              exact served.elim
          | fails failure =>
              rw [verdict] at served
              obtain ⟨cause, rfl, failed⟩ := served
              intro remaining
              simp only [failed]
          | goesOn deed next =>
              rw [verdict] at served
              obtain ⟨t, after, done⟩ := served
              refine ⟨t, after, ?_⟩
              intro remaining
              simp only [done]
      | execute =>
          have executed := s.executeNext_follows
          cases verdict : executeVerdict s.cpu.processor with
          | exits =>
              rw [verdict] at executed
              exact executed.elim
          | fails failure =>
              rw [verdict] at executed
              intro remaining
              cases ended : s.begun.executeNext with
              | mk failed t =>
                  rw [ended] at executed
                  cases executed
                  rfl
          | goesOn deed next =>
              rw [verdict] at executed
              obtain ⟨t, after, done⟩ := executed
              refine ⟨t, after, ?_⟩
              intro remaining
              simp only [done]

section

variable {configuration : Configuration} {s : Session}

theorem run_of_exits (remaining : Nat)
    (h : verdict configuration (s.steps == 0) s.cpu.processor = .exits) :
    (s.run configuration (remaining + 1)).1 = .ok ⟨s.output, s.steps + 1, s.cycles⟩ := by
  have follows := s.run_follows configuration
  rw [h] at follows
  exact follows remaining

theorem run_of_fails (remaining : Nat) {failure : Failure}
    (h : verdict configuration (s.steps == 0) s.cpu.processor = .fails failure) :
    (s.run configuration (remaining + 1)).1 = .error failure := by
  have follows := s.run_follows configuration
  rw [h] at follows
  exact follows remaining

theorem run_of_goesOn {deed : Deed} {next : Processor Unit}
    (h : verdict configuration (s.steps == 0) s.cpu.processor = .goesOn deed next) :
    ∃ t, s.After deed next t ∧
      ∀ remaining, s.run configuration (remaining + 1) = t.run configuration remaining := by
  have follows := s.run_follows configuration
  rw [h] at follows
  exact follows

end

end Session

end Diagnostic

end Intel8080
