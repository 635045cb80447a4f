import Intel8080.Invaders.Machine

/-!
# What happens in a frame

The same frame, which also lists the steps it takes and the requests it makes. Leaving
the list out gives the frame back, so the list is what the frame does. A frame fails in
its first half, fails in its second half, or completes; each of these is one rule below,
and later modules reason by these rules alone.
-/

namespace Intel8080

/-- A step that succeeds, a step that fails, or a request, with the processor that it
happens to. -/
inductive Event (σ : Type) where
  | step (before : Processor σ) (cost : Nat)
  | fault (before : Processor σ) (cause : Fault)
  | request (before : Processor σ) (vector : UInt8)

namespace Event

variable {σ : Type}

def cycles : Event σ → Nat
  | .step _ cost => cost
  | .fault _ _ => 0
  | .request _ _ => 0

def vector? : Event σ → Option UInt8
  | .request _ vector => some vector
  | _ => none

def elapsed : List (Event σ) → Nat
  | [] => 0
  | event :: events => event.cycles + elapsed events

def requests (events : List (Event σ)) : List UInt8 :=
  events.filterMap vector?

@[simp] theorem elapsed_nil : elapsed ([] : List (Event σ)) = 0 := rfl

@[simp] theorem elapsed_cons (event : Event σ) (events : List (Event σ)) :
    elapsed (event :: events) = event.cycles + elapsed events := rfl

@[simp] theorem elapsed_append (first second : List (Event σ)) :
    elapsed (first ++ second) = elapsed first + elapsed second := by
  induction first with
  | nil => simp
  | cons event events ih => simp [ih, Nat.add_assoc]

@[simp] theorem requests_nil : requests ([] : List (Event σ)) = [] := rfl

@[simp] theorem requests_append (first second : List (Event σ)) :
    requests (first ++ second) = requests first ++ requests second :=
  List.filterMap_append

@[simp] theorem requests_request (before : Processor σ) (vector : UInt8)
    (events : List (Event σ)) :
    requests (.request before vector :: events) = vector :: requests events := rfl

end Event

/-! ## Running up to a target -/

/-- Steps are taken while the clock is below the target, and the first fault ends the
run. -/
inductive Approaches {σ : Type} (target : Nat) :
    Nat → Processor σ → List (Event σ) → Option Fault → Nat → Processor σ → Prop where
  | reached {clock : Nat} {p : Processor σ} (enough : target ≤ clock) :
      Approaches target clock p [] none clock p
  | step {clock cost last : Nat} {p q final : Processor σ} {events : List (Event σ)}
      {fault? : Option Fault} (below : clock < target) (stepped : p.step = (.ok cost, q))
      (rest : Approaches target (clock + cost) q events fault? last final) :
      Approaches target clock p (.step p cost :: events) fault? last final
  | fault {clock : Nat} {p q : Processor σ} {cause : Fault} (below : clock < target)
      (failed : p.step = (.error cause, q)) :
      Approaches target clock p [.fault p cause] (some cause) clock q

namespace Monitor

variable {σ : Type} {target clock : Nat}

def tracedUntil (target clock : Nat) (m : Monitor σ) :
    List (Event σ) × Option Fault × Nat × Monitor σ :=
  if clock < target then
    match h : m.step with
    | (.ok cost, after) =>
        have := (cost_of_step h).1
        let (events, outcome) := tracedUntil target (clock + cost) after
        (.step m.processor cost :: events, outcome)
    | (.error fault, after) => ([.fault m.processor fault], some fault, clock, after)
  else
    ([], none, clock, m)
termination_by target - clock
decreasing_by omega

theorem tracedUntil_of_ge (m : Monitor σ) (h : target ≤ clock) :
    m.tracedUntil target clock = ([], none, clock, m) := by
  rw [tracedUntil, if_neg (Nat.not_lt.mpr h)]

theorem tracedUntil_of_step {cost : Nat} {m after : Monitor σ} (below : clock < target)
    (stepped : m.step = (.ok cost, after)) :
    m.tracedUntil target clock =
      (.step m.processor cost :: (after.tracedUntil target (clock + cost)).1,
        (after.tracedUntil target (clock + cost)).2) := by
  rw [tracedUntil, if_pos below]
  split
  · rename_i same
    rw [stepped] at same
    cases same
    rfl
  · rename_i same
    rw [stepped] at same
    cases same

theorem tracedUntil_of_fault {fault : Fault} {m after : Monitor σ} (below : clock < target)
    (stepped : m.step = (.error fault, after)) :
    m.tracedUntil target clock = ([.fault m.processor fault], some fault, clock, after) := by
  rw [tracedUntil, if_pos below]
  split
  · rename_i same
    rw [stepped] at same
    cases same
  · rename_i same
    rw [stepped] at same
    cases same
    rfl

/-- The list leaves the run alone and follows its steps. -/
theorem tracedUntil_spec (target clock : Nat) (m : Monitor σ) :
    (m.tracedUntil target clock).2 = m.runUntil target clock ∧
      Approaches target clock m.processor (m.tracedUntil target clock).1
        (m.runUntil target clock).1 (m.runUntil target clock).2.1
        (m.runUntil target clock).2.2.processor := by
  induction distance : target - clock using Nat.strongRecOn generalizing clock m with
  | ind distance ih =>
      by_cases below : clock < target
      · cases stepped : m.step with
        | mk outcome after =>
            have inner : m.processor.step = (outcome, after.processor) := by
              apply Prod.ext
              · rw [← step_outcome, stepped]
              · rw [← step_processor, stepped]
            cases outcome with
            | error fault =>
                rw [tracedUntil_of_fault below stepped, runUntil_of_fault below stepped]
                exact ⟨rfl, .fault below inner⟩
            | ok cost =>
                have price := cost_of_step stepped
                have later := ih (target - (clock + cost)) (by omega) (clock + cost) after rfl
                rw [tracedUntil_of_step below stepped, runUntil_of_step below stepped]
                exact ⟨later.1, .step below inner later.2⟩
      · have reached : target ≤ clock := by omega
        rw [tracedUntil_of_ge m reached, runUntil_of_ge m reached]
        exact ⟨rfl, .reached reached⟩

end Monitor

namespace Approaches

variable {σ : Type} {target clock last : Nat} {p final : Processor σ} {events : List (Event σ)}
  {fault? : Option Fault}

theorem last_eq (h : Approaches target clock p events fault? last final) :
    last = clock + Event.elapsed events := by
  induction h with
  | reached _ => rfl
  | step _ _ _ ih => simp only [Event.elapsed_cons, Event.cycles]; omega
  | fault _ _ => rfl

theorem requests_eq_nil (h : Approaches target clock p events fault? last final) :
    Event.requests events = [] := by
  induction h with
  | reached _ => rfl
  | step _ _ _ ih => exact ih
  | fault _ _ => rfl

theorem last_of_done (h : Approaches target clock p events none last final) :
    target ≤ last ∧ last ≤ max clock (target + 17) := by
  generalize finished : (none : Option Fault) = fault? at h
  induction h with
  | reached enough => omega
  | step below stepped _ ih =>
      have price := Processor.cost_of_step stepped
      have later := ih finished
      omega
  | fault _ _ => cases finished

theorem last_of_fault {cause : Fault}
    (h : Approaches target clock p events (some cause) last final) : last < target := by
  generalize failing : some cause = fault? at h
  induction h with
  | reached _ => cases failing
  | step _ _ _ ih => exact ih failing
  | fault below _ => exact below

theorem deterministic {events' : List (Event σ)} {fault?' : Option Fault} {last' : Nat}
    {final' : Processor σ} (h : Approaches target clock p events fault? last final)
    (h' : Approaches target clock p events' fault?' last' final') :
    events = events' ∧ fault? = fault?' ∧ last = last' ∧ final = final' := by
  induction h generalizing events' with
  | reached enough =>
      cases h' with
      | reached _ => exact ⟨rfl, rfl, rfl, rfl⟩
      | step below' _ _ => omega
      | fault below' _ => omega
  | step below stepped _ ih =>
      cases h' with
      | reached enough' => omega
      | step _ stepped' rest' =>
          cases stepped.symm.trans stepped'
          obtain ⟨rfl, same⟩ := ih rest'
          exact ⟨rfl, same⟩
      | fault _ failed' => cases stepped.symm.trans failed'
  | fault below failed =>
      cases h' with
      | reached enough' => omega
      | step _ stepped' _ => cases failed.symm.trans stepped'
      | fault _ failed' =>
          cases failed.symm.trans failed'
          exact ⟨rfl, rfl, rfl, rfl⟩

end Approaches

/-! ## Frames -/

namespace Invaders

/-- One call for a frame of a given length: it fails in its first half, fails in its second
half, or completes. -/
inductive FrameCall (length : Nat) :
    Nat → Processor Board → List (Event Board) → Except Fault Nat → Nat → Processor Board →
      Prop where
  | early {clock last : Nat} {p q : Processor Board} {events : List (Event Board)} {cause : Fault}
      (first : Approaches (length / 2) clock p events (some cause) last q) :
      FrameCall length clock p events (.error cause) last q
  | late {clock middle last : Nat} {p q r : Processor Board} {events later : List (Event Board)}
      {cause : Fault} (first : Approaches (length / 2) clock p events none middle q)
      (second : Approaches length middle (q.requestInterrupt midScreenVector) later (some cause)
        last r) :
      FrameCall length clock p (events ++ .request q midScreenVector :: later) (.error cause) last r
  | complete {clock middle last : Nat} {p q r : Processor Board}
      {events later : List (Event Board)}
      (first : Approaches (length / 2) clock p events none middle q)
      (second : Approaches length middle (q.requestInterrupt midScreenVector) later none last r) :
      FrameCall length clock p
        (events ++ .request q midScreenVector :: (later ++ [.request r endOfScreenVector]))
        (.ok (last - clock)) (last - length) (r.requestInterrupt endOfScreenVector)

theorem FrameCall.deterministic {length clock last last' : Nat} {p q q' : Processor Board}
    {events events' : List (Event Board)} {outcome outcome' : Except Fault Nat}
    (h : FrameCall length clock p events outcome last q)
    (h' : FrameCall length clock p events' outcome' last' q') :
    events = events' ∧ outcome = outcome' ∧ last = last' ∧ q = q' := by
  cases h with
  | early first =>
      cases h' with
      | early first' =>
          obtain ⟨rfl, same, rfl, rfl⟩ := first.deterministic first'
          cases same
          exact ⟨rfl, rfl, rfl, rfl⟩
      | late first' _ => cases (first.deterministic first').2.1
      | complete first' _ => cases (first.deterministic first').2.1
  | late first second =>
      cases h' with
      | early first' => cases (first.deterministic first').2.1
      | late first' second' =>
          obtain ⟨rfl, -, rfl, rfl⟩ := first.deterministic first'
          obtain ⟨rfl, same, rfl, rfl⟩ := second.deterministic second'
          cases same
          exact ⟨rfl, rfl, rfl, rfl⟩
      | complete first' second' =>
          obtain ⟨rfl, -, rfl, rfl⟩ := first.deterministic first'
          cases (second.deterministic second').2.1
  | complete first second =>
      cases h' with
      | early first' => cases (first.deterministic first').2.1
      | late first' second' =>
          obtain ⟨rfl, -, rfl, rfl⟩ := first.deterministic first'
          cases (second.deterministic second').2.1
      | complete first' second' =>
          obtain ⟨rfl, -, rfl, rfl⟩ := first.deterministic first'
          obtain ⟨rfl, -, rfl, rfl⟩ := second.deterministic second'
          exact ⟨rfl, rfl, rfl, rfl⟩

namespace Machine

def tracedToInterrupt (target : Nat) (vector : UInt8) :
    Machine → List (Event Board) × Option Fault × Machine
  | ⟨configuration, cpu, frameCycles⟩ =>
      match cpu.tracedUntil target frameCycles with
      | (events, none, frameCycles, cpu) =>
          (events ++ [.request cpu.processor vector], none,
            ⟨configuration, cpu.requestInterrupt vector, frameCycles⟩)
      | (events, some fault, frameCycles, cpu) =>
          (events, some fault, ⟨configuration, cpu, frameCycles⟩)

def tracedFrame (m : Machine) : List (Event Board) × Except Fault Nat × Machine :=
  let length := m.configuration.cyclesPerFrame
  let before := m.frameCycles
  match m.tracedToInterrupt (length / 2) midScreenVector with
  | (events, some fault, m) => (events, .error fault, m)
  | (events, none, m) =>
      match m.tracedToInterrupt length endOfScreenVector with
      | (later, some fault, m) => (events ++ later, .error fault, m)
      | (later, none, m) =>
          (events ++ later, .ok (m.frameCycles - before),
            { m with frameCycles := m.frameCycles - length })

def frameEvents (m : Machine) : List (Event Board) :=
  m.tracedFrame.1

theorem tracedToInterrupt_cases (target : Nat) (vector : UInt8) (m : Machine) :
    ∃ events fault? last cpu,
      Approaches target m.frameCycles m.cpu.processor events fault? last cpu.processor ∧
      ((fault? = none ∧
          m.tracedToInterrupt target vector = (events ++ [.request cpu.processor vector],
            m.runToInterrupt target vector) ∧
          m.runToInterrupt target vector =
            (none, ⟨m.configuration, cpu.requestInterrupt vector, last⟩)) ∨
        ∃ cause, fault? = some cause ∧
          m.tracedToInterrupt target vector = (events, m.runToInterrupt target vector) ∧
          m.runToInterrupt target vector = (some cause, ⟨m.configuration, cpu, last⟩)) := by
  obtain ⟨configuration, cpu, frameCycles⟩ := m
  obtain ⟨same, run⟩ := cpu.tracedUntil_spec target frameCycles
  cases traced : cpu.tracedUntil target frameCycles with
  | mk events outcome =>
      rw [traced] at same run
      obtain ⟨fault?, last, after⟩ := outcome
      simp only at same
      rw [← same] at run
      refine ⟨events, fault?, last, after, run, ?_⟩
      cases fault? with
      | none =>
          refine .inl ⟨rfl, ?_, ?_⟩
          · simp only [tracedToInterrupt, runToInterrupt, traced, ← same]
          · simp only [runToInterrupt, ← same]
      | some cause =>
          refine .inr ⟨cause, rfl, ?_, ?_⟩
          · simp only [tracedToInterrupt, runToInterrupt, traced, ← same]
          · simp only [runToInterrupt, ← same]

/-- The list leaves the frame alone, and the frame follows one of its three rules. -/
theorem tracedFrame_spec (m : Machine) :
    m.tracedFrame.2 = m.stepFrame ∧
      FrameCall m.configuration.cyclesPerFrame m.frameCycles m.cpu.processor m.frameEvents
        m.stepFrame.1 m.stepFrame.2.frameCycles m.stepFrame.2.cpu.processor ∧
      m.stepFrame.2.configuration = m.configuration := by
  obtain ⟨events, fault?, middle, half, first, cases⟩ :=
    m.tracedToInterrupt_cases (m.configuration.cyclesPerFrame / 2) midScreenVector
  rcases cases with ⟨rfl, traced, ran⟩ | ⟨cause, rfl, traced, ran⟩
  · rw [ran] at traced
    obtain ⟨later, fault?, last, whole, second, cases⟩ :=
      tracedToInterrupt_cases m.configuration.cyclesPerFrame endOfScreenVector
        ⟨m.configuration, half.requestInterrupt midScreenVector, middle⟩
    rcases cases with ⟨rfl, traced', ran'⟩ | ⟨cause, rfl, traced', ran'⟩
    · rw [ran'] at traced'
      have call := FrameCall.complete first second
      simp only [frameEvents, tracedFrame, stepFrame, traced, ran, traced', ran']
      refine ⟨trivial, ?_, trivial⟩
      rw [List.append_assoc]
      exact call
    · rw [ran'] at traced'
      have call := FrameCall.late first second
      simp only [frameEvents, tracedFrame, stepFrame, traced, ran, traced', ran']
      refine ⟨trivial, ?_, trivial⟩
      rw [List.append_assoc]
      exact call
  · rw [ran] at traced
    simp only [frameEvents, tracedFrame, stepFrame, traced, ran]
    exact ⟨trivial, .early first, trivial⟩

theorem stepFrame_of_frameCall {m : Machine} {length clock last : Nat} {p q : Processor Board}
    {events : List (Event Board)} {outcome : Except Fault Nat}
    (long : m.configuration.cyclesPerFrame = length) (counter : m.frameCycles = clock)
    (running : m.cpu.processor = p) (h : FrameCall length clock p events outcome last q) :
    m.frameEvents = events ∧ m.stepFrame.1 = outcome ∧ m.stepFrame.2.frameCycles = last ∧
      m.stepFrame.2.cpu.processor = q := by
  subst long counter running
  exact m.tracedFrame_spec.2.1.deterministic h

end Machine

end Invaders

end Intel8080
