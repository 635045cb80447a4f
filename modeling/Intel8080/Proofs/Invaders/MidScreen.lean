import Intel8080.Proofs.Execution.FaultOrder
import Intel8080.Proofs.Interrupts.Acceptance
import Intel8080.Proofs.Invaders.Hosting

/-!
# One request for the middle of each screen

Whether a frame has made its first request is nowhere on record, and the next call begins
with the first half. A call that fails in its first half has made no request and the next
one makes both. One that fails later has, and the next call makes that request again, at
once. The frames of a history are therefore told apart by their requests exactly if nothing
follows a call that fails late.
-/

namespace Intel8080.Invaders

/-- In each stretch from one end of the screen to the next, the first and the last stretch
included, the middle is requested at most once, and exactly once if the stretch is
complete. -/
def OncePerFrame (requests : List UInt8) : Prop :=
  ∀ earlier frame later, requests = earlier ++ frame ++ later →
    (earlier = [] ∨ earlier.getLast? = some endOfScreenVector) → endOfScreenVector ∉ frame →
    frame.count midScreenVector ≤ 1 ∧
      (later.head? = some endOfScreenVector → frame.count midScreenVector = 1)

/-! ## Lists of requests -/

@[simp] theorem midScreenVector_ne : midScreenVector ≠ endOfScreenVector := by decide

theorem oncePerFrame_nil : OncePerFrame [] := by
  intro earlier frame later split _ _
  obtain ⟨-, rfl, rfl⟩ : earlier = [] ∧ frame = [] ∧ later = [] := by simpa using split.symm
  simp

theorem oncePerFrame_begun : OncePerFrame [midScreenVector] := by
  intro earlier frame later split whole _
  cases earlier with
  | nil =>
      cases frame with
      | nil =>
          obtain rfl : later = [midScreenVector] := split.symm
          simp
      | cons first rest =>
          simp only [List.nil_append, List.cons_append, List.cons.injEq, List.nil_eq,
            List.append_eq_nil_iff] at split
          obtain ⟨rfl, rfl, rfl⟩ := split
          simp
  | cons first rest =>
      simp only [List.cons_append, List.cons.injEq, List.nil_eq, List.append_eq_nil_iff] at split
      obtain ⟨rfl, ⟨rfl, rfl⟩, rfl⟩ := split
      simp at whole

theorem oncePerFrame_completed {requests : List UInt8} :
    OncePerFrame (midScreenVector :: endOfScreenVector :: requests) ↔ OncePerFrame requests := by
  constructor
  · intro h earlier frame later split whole
    apply h (midScreenVector :: endOfScreenVector :: earlier) frame later (by simp [split])
    refine .inr ?_
    rcases whole with rfl | ended
    · rfl
    · rw [List.getLast?_cons_cons, List.getLast?_cons, ended]
      rfl
  · intro h earlier frame later split whole inner
    match earlier with
    | [] =>
        match frame with
        | [] =>
            obtain rfl : later = midScreenVector :: endOfScreenVector :: requests := split.symm
            simp
        | [only] =>
            obtain ⟨rfl, -⟩ : midScreenVector = only ∧ _ = later := by simpa using split
            simp
        | first :: second :: rest =>
            obtain ⟨-, rfl, -⟩ : _ ∧ endOfScreenVector = second ∧ _ := by simpa using split
            simp at inner
    | [only] =>
        obtain ⟨rfl, -⟩ : midScreenVector = only ∧ _ := by simpa using split
        simp at whole
    | first :: second :: earlier =>
        obtain ⟨-, -, tail⟩ : _ ∧ _ ∧ requests = earlier ++ (frame ++ later) := by
          simpa using split
        apply h earlier frame later (by rw [tail, List.append_assoc]) ?_ inner
        cases earlier with
        | nil => exact .inl rfl
        | cons third rest => exact .inr (by simpa [List.getLast?_cons_cons] using whole)

theorem not_oncePerFrame_repeated (requests : List UInt8) :
    ¬ OncePerFrame (midScreenVector :: midScreenVector :: requests) := by
  intro h
  have twice := h [] [midScreenVector, midScreenVector] requests rfl (.inl rfl) (by decide)
  exact absurd twice.1 (by decide)

/-! ## One call -/

theorem FrameCall.requests_cases {length clock last : Nat} {p q : Processor Board}
    {events : List (Event Board)} {outcome : Except Fault Nat}
    (h : FrameCall length clock p events outcome last q) :
    (Event.requests events = [] ∧ clock < length / 2) ∨
      (Event.requests events = [midScreenVector] ∧ length / 2 ≤ last ∧
        ∃ cause, outcome = .error cause) ∨
      (Event.requests events = [midScreenVector, endOfScreenVector] ∧
        ∃ spent, outcome = .ok spent) := by
  cases h with
  | early first =>
      have counted := first.last_eq
      have stopped := first.last_of_fault
      exact .inl ⟨first.requests_eq_nil, by omega⟩
  | late first second =>
      have middle := first.last_of_done
      have counted := second.last_eq
      refine .inr (.inl ⟨?_, by omega, _, rfl⟩)
      rw [Event.requests_append, first.requests_eq_nil, Event.requests_request,
        second.requests_eq_nil]
      rfl
  | complete first second =>
      refine .inr (.inr ⟨?_, _, rfl⟩)
      rw [Event.requests_append, first.requests_eq_nil, Event.requests_request,
        Event.requests_append, second.requests_eq_nil]
      rfl

namespace Machine

variable {m : Machine}

/-- The next call fails, after the request for the middle of the screen. -/
def FailsLate (m : Machine) : Prop :=
  (∃ cause, m.stepFrame.1 = .error cause) ∧ midScreenVector ∈ Event.requests m.frameEvents

theorem requests_of_failsLate (h : m.FailsLate) :
    Event.requests m.frameEvents = [midScreenVector] ∧
      m.configuration.cyclesPerFrame / 2 ≤ m.stepFrame.2.frameCycles := by
  obtain ⟨⟨cause, failing⟩, requested⟩ := h
  rcases m.tracedFrame_spec.2.1.requests_cases with ⟨none, -⟩ | ⟨one, late, -⟩ | ⟨-, spent, done⟩
  · rw [none] at requested
    simp at requested
  · exact ⟨one, late⟩
  · cases failing.symm.trans done

theorem requests_of_not_failsLate (h : ¬ m.FailsLate) :
    Event.requests m.frameEvents = [] ∨
      Event.requests m.frameEvents = [midScreenVector, endOfScreenVector] := by
  rcases m.tracedFrame_spec.2.1.requests_cases with ⟨none, -⟩ | ⟨one, -, failing⟩ | ⟨both, -⟩
  · exact .inl none
  · exact absurd ⟨failing, by simp [one]⟩ h
  · exact .inr both

theorem requests_of_half_le (h : m.configuration.cyclesPerFrame / 2 ≤ m.frameCycles) :
    ∃ later, Event.requests m.frameEvents = midScreenVector :: later := by
  rcases m.tracedFrame_spec.2.1.requests_cases with ⟨-, early⟩ | ⟨one, -⟩ | ⟨both, -⟩
  · omega
  · exact ⟨_, one⟩
  · exact ⟨_, both⟩

/-! ## Histories -/

/-- Some call of a history fails late, and another call comes after it. -/
def ResumesLate (m : Machine) (actions : List HostAction) : Prop :=
  ∃ earlier later, actions = earlier ++ .frame :: later ∧ (m.play earlier).FailsLate ∧
    .frame ∈ later

theorem not_resumesLate_nil : ¬ m.ResumesLate [] := by
  rintro ⟨earlier, later, split, -⟩
  simp at split

theorem resumesLate_cons {action : HostAction} {rest : List HostAction} :
    m.ResumesLate (action :: rest) ↔
      (action = .frame ∧ m.FailsLate ∧ .frame ∈ rest) ∨ (m.act action).ResumesLate rest := by
  constructor
  · rintro ⟨earlier, later, split, fails, again⟩
    cases earlier with
    | nil =>
        obtain ⟨rfl, rfl⟩ : action = .frame ∧ rest = later := by simpa using split
        exact .inl ⟨rfl, fails, again⟩
    | cons first earlier =>
        obtain ⟨rfl, rfl⟩ : action = first ∧ rest = earlier ++ .frame :: later := by
          simpa using split
        exact .inr ⟨earlier, later, rfl, fails, again⟩
  · rintro (⟨rfl, fails, again⟩ | ⟨earlier, later, rfl, fails, again⟩)
    · exact ⟨[], rest, rfl, fails, again⟩
    · exact ⟨action :: earlier, later, rfl, fails, again⟩

theorem requests_frameHistory_append (m : Machine) (earlier later : List HostAction) :
    Event.requests (m.frameHistory (earlier ++ later)) =
      Event.requests (m.frameHistory earlier) ++
        Event.requests ((m.play earlier).frameHistory later) := by
  rw [frameHistory, collect_append, Event.requests_append]
  rfl

theorem requests_frameHistory_cons (m : Machine) (action : HostAction) (rest : List HostAction) :
    Event.requests (m.frameHistory (action :: rest)) =
      Event.requests (m.framed action) ++ Event.requests ((m.act action).frameHistory rest) :=
  Event.requests_append ..

theorem requests_of_frame_not_mem {actions : List HostAction} (h : .frame ∉ actions) :
    Event.requests (m.frameHistory actions) = [] := by
  induction actions generalizing m with
  | nil => rfl
  | cons action rest ih =>
      obtain ⟨other, tail⟩ : .frame ≠ action ∧ .frame ∉ rest := by simpa using h
      rw [requests_frameHistory_cons, framed_of_ne_frame m other.symm, ih tail]
      rfl

theorem requests_of_frame_mem {actions : List HostAction} (h : .frame ∈ actions)
    (late : m.configuration.cyclesPerFrame / 2 ≤ m.frameCycles) :
    ∃ later, Event.requests (m.frameHistory actions) = midScreenVector :: later := by
  induction actions generalizing m with
  | nil => cases h
  | cons action rest ih =>
      rw [requests_frameHistory_cons]
      by_cases frame : action = .frame
      · subst frame
        obtain ⟨later, first⟩ := requests_of_half_le late
        exact ⟨later ++ _, by rw [framed, first, List.cons_append]⟩
      · have tail : .frame ∈ rest := by
          rcases List.mem_cons.mp h with same | tail
          · exact absurd same.symm frame
          · exact tail
        rw [framed_of_ne_frame m frame]
        apply ih tail
        rw [act_configuration, act_frameCycles m frame]
        exact late

/-- After a call that fails late, the next one asks again. -/
theorem requests_of_failsLate_of_mem {rest : List HostAction} (fails : m.FailsLate)
    (again : .frame ∈ rest) :
    ∃ later, Event.requests (m.frameHistory (.frame :: rest)) =
      midScreenVector :: midScreenVector :: later := by
  obtain ⟨one, late⟩ := requests_of_failsLate fails
  have past : (m.act .frame).configuration.cyclesPerFrame / 2 ≤ (m.act .frame).frameCycles := by
    rw [act_configuration]
    exact late
  obtain ⟨later, next⟩ := requests_of_frame_mem again past
  refine ⟨later, ?_⟩
  rw [requests_frameHistory_cons, framed, one, next]
  rfl

/-- An action other than a call that fails late asks for whole frames or for nothing. -/
theorem oncePerFrame_append {action : HostAction} (calm : action = .frame → ¬ m.FailsLate)
    (requests : List UInt8) :
    OncePerFrame (Event.requests (m.framed action) ++ requests) ↔ OncePerFrame requests := by
  by_cases frame : action = .frame
  · subst frame
    rcases requests_of_not_failsLate (calm rfl) with none | both
    · rw [framed, none, List.nil_append]
    · rw [framed, both]
      exact oncePerFrame_completed
  · rw [framed_of_ne_frame m frame, Event.requests_nil, List.nil_append]

/-- The frames of a history are told apart by their requests exactly if no call follows one
that fails late. -/
theorem oncePerFrame_iff_not_resumesLate (m : Machine) (actions : List HostAction) :
    OncePerFrame (Event.requests (m.frameHistory actions)) ↔ ¬ m.ResumesLate actions := by
  induction actions generalizing m with
  | nil => exact iff_of_true oncePerFrame_nil not_resumesLate_nil
  | cons action rest ih =>
      rw [resumesLate_cons]
      by_cases late : action = .frame ∧ m.FailsLate
      · obtain ⟨rfl, fails⟩ := late
        by_cases again : .frame ∈ rest
        · obtain ⟨later, twice⟩ := requests_of_failsLate_of_mem fails again
          rw [twice]
          exact iff_of_false (not_oncePerFrame_repeated later)
            (fun calm => calm (.inl ⟨rfl, fails, again⟩))
        · have none := requests_of_frame_not_mem (m := m.act .frame) again
          have calm := (ih (m.act .frame)).mp (by rw [none]; exact oncePerFrame_nil)
          rw [requests_frameHistory_cons, framed, (requests_of_failsLate fails).1, none]
          refine iff_of_true oncePerFrame_begun ?_
          rintro (⟨-, -, more⟩ | resumes)
          · exact again more
          · exact calm resumes
      · have calm : action = .frame → ¬ m.FailsLate := fun frame fails => late ⟨frame, fails⟩
        have never : ¬ (action = .frame ∧ m.FailsLate ∧ .frame ∈ rest) :=
          fun resumed => late ⟨resumed.1, resumed.2.1⟩
        rw [requests_frameHistory_cons, oncePerFrame_append calm, ih (m.act action),
          or_iff_right never]

/-! ## A frame that asks twice -/

section

variable {memory : Memory} {ports : Ports Board}

def armed (memory : Memory) (ports : Ports Board) : Processor Board :=
  ⟨{ Core.cleared with interruptsEnabled := true }, memory, ports⟩

def idled (p : Processor Board) : Processor Board :=
  { p with
    core := { p.core with
      registers := { p.core.registers with pc := p.core.registers.pc + 1 }
      opcode := 0x00
      opcodeAddress := p.core.registers.pc } }

def interrupted (memory : Memory) (ports : Ports Board) : Processor Board :=
  (idled (idled (idled (armed memory ports)))).requestInterrupt midScreenVector

def wedged (memory : Memory) (ports : Ports Board) : Processor Board :=
  ((interrupted memory ports).accepted midScreenVector).enter 8

theorem step_of_nop {p : Processor Board} (covering : Memory.addressSpace ≤ p.memory.capacity)
    (fetching : p.core.acceptable = none) (idle : p.peek p.core.registers.pc = 0x00) :
    p.step = (.ok 4, idled p) := by
  have ready : p.prepared = idled p := by
    rw [Processor.prepared_of_fetching fetching]
    simp only [Processor.fetched, Processor.fetchedCore, Processor.instructionLength, idle]
    rfl
  have line : p.prepared.operation? = some .nop := by
    rw [ready]
    rfl
  have accepted : ¬ Opcode.Refused p.prepared.core.opcode := by
    rw [ready]
    show ¬ Opcode.Refused 0x00
    decide
  rw [Processor.step_of_covering covering accepted line rfl, ready]
  rfl

theorem step_interrupted (covering : Memory.addressSpace ≤ memory.capacity) :
    (interrupted memory ports).step = (.ok 11, wedged memory ports) := by
  have ready : (interrupted memory ports).prepared =
      (interrupted memory ports).accepted midScreenVector :=
    Processor.prepared_of_acceptable rfl
  have line : (interrupted memory ports).prepared.operation? = some (.rst 1) := by
    rw [ready]
    rfl
  have accepted : ¬ Opcode.Refused (interrupted memory ports).prepared.core.opcode := by
    rw [ready]
    show ¬ Opcode.Refused midScreenVector
    decide
  have stepped := Processor.step_of_covering covering accepted line rfl
  rw [stepped, ready]
  rfl

theorem step_wedged (covering : Memory.addressSpace ≤ memory.capacity)
    (halt : memory.byteAt 8 = 0x76) :
    (wedged memory ports).step =
      (.error (.unimplementedOpcode 0x76 8), wedged memory ports) := by
  have stacked : (wedged memory ports).memory =
      (memory.store (0 - 1) (Manual.upper 3)).store (0 - 2) (Manual.lower 3) := rfl
  have covered : Memory.addressSpace ≤ (wedged memory ports).memory.capacity := by
    rw [stacked, Memory.capacity_store, Memory.capacity_store]
    exact covering
  have opcode : (wedged memory ports).prepared.core.opcode = 0x76 := by
    have fetched : (wedged memory ports).prepared = (wedged memory ports).fetched :=
      Processor.prepared_of_fetching rfl
    have read : (wedged memory ports).fetched.core.opcode =
        (wedged memory ports).memory.byteAt 8 := rfl
    rw [fetched, read, stacked, Memory.byteAt_store_of_ne _ _ (by decide),
      Memory.byteAt_store_of_ne _ _ (by decide), halt]
  have refused : Opcode.Refused (wedged memory ports).prepared.core.opcode := by
    rw [opcode]
    decide
  rw [Processor.step_of_refused covered refused, opcode]
  rfl

theorem failsLate_of_wedged {m : Machine} (covering : Memory.addressSpace ≤ memory.capacity)
    (idle : ∀ address < 3, memory.byteAt address = 0x00) (halt : memory.byteAt 8 = 0x76)
    (started : m.cpu.processor = armed memory ports) (brief : m.configuration.cyclesPerFrame = 24)
    (first : m.frameCycles = 0) : m.FailsLate := by
  have half : Approaches 12 0 (armed memory ports) _ none 12 _ :=
    .step (by decide) (step_of_nop covering rfl (idle 0 (by decide)))
      (.step (by decide) (step_of_nop covering rfl (idle 1 (by decide)))
        (.step (by decide) (step_of_nop covering rfl (idle 2 (by decide)))
          (.reached (by decide))))
  have rest : Approaches 24 12 (interrupted memory ports) _ _ 23 (wedged memory ports) :=
    .step (by decide) (step_interrupted covering)
      (.fault (by decide) (step_wedged covering halt))
  obtain ⟨events, failed, -⟩ := stepFrame_of_frameCall brief first started (.late half rest)
  refine ⟨⟨_, failed⟩, ?_⟩
  rw [events, Event.requests_append, Event.requests_request]
  exact List.mem_append_right _ List.mem_cons_self

end

def brief : Machine :=
  new ⟨24, 1, ⟨3, true⟩⟩ ⟨none, #[]⟩

/-- HLT stands where the restart leads. -/
def cracked : Machine :=
  brief.play [.patch 8 0x76, .arm]

/-- The first frame fails on HLT. After the host has replaced it, the same frame asks
for the middle of the screen again. -/
theorem frame_asks_twice : Started brief ∧
    ¬ OncePerFrame (Event.requests (brief.frameHistory
      [.patch 8 0x76, .arm, .frame, .patch 8 0x00, .frame])) := by
  refine ⟨.new _ _, ?_⟩
  have capacity : ((Memory.zeroed Memory.addressSpace).store 8 0x76).capacity =
      Memory.addressSpace := by
    rw [Memory.capacity_store, Memory.capacity_zeroed]
  have idle : ∀ address < 3,
      ((Memory.zeroed Memory.addressSpace).store 8 0x76).byteAt address = 0x00 := by
    intro address low
    have other : 8 ≠ address := by
      rintro rfl
      exact absurd low (by decide)
    rw [Memory.byteAt_store_of_ne _ _ other, Memory.byteAt_zeroed]
  have halt : ((Memory.zeroed Memory.addressSpace).store 8 0x76).byteAt 8 = 0x76 :=
    Memory.byteAt_store_self _ (by rw [Memory.capacity_zeroed]; decide)
  have fails : cracked.FailsLate :=
    failsLate_of_wedged (Nat.le_of_eq capacity.symm) idle halt rfl rfl rfl
  have again : HostAction.frame ∈ [.patch 8 0x00, .frame] := by simp
  obtain ⟨later, twice⟩ := requests_of_failsLate_of_mem fails again
  have opening : Event.requests (brief.frameHistory [.patch 8 0x76, .arm]) = [] :=
    requests_of_frame_not_mem (by simp [HostAction.patch, HostAction.arm])
  have requests : Event.requests (brief.frameHistory
      ([.patch 8 0x76, .arm] ++ [.frame, .patch 8 0x00, .frame])) =
        midScreenVector :: midScreenVector :: later := by
    rw [requests_frameHistory_append, opening, List.nil_append]
    exact twice
  rw [List.cons_append, List.cons_append, List.nil_append] at requests
  rw [requests]
  exact not_oncePerFrame_repeated later

end Machine

end Intel8080.Invaders
