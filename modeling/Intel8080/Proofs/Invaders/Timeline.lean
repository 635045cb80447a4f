import Mathlib.Algebra.GroupWithZero.Nat
import Intel8080.Invaders.Machine

/-!
# Frames on one timeline

A frame counts its cycles from its own start and carries the overshoot on. On a clock
that is never reset the same run meets its requests at fixed times: frame `k` of length
`length` has one at `k * length + length / 2` and one at `(k + 1) * length`.
-/

namespace Intel8080

/-- An interrupt to be requested once a clock has reached a time. -/
structure Request where
  time : Nat
  vector : UInt8

namespace Processor

variable {σ : Type}

/-- A run that serves requests in order. It steps while the clock is below the time of the
next request and then makes it; the clock only ever grows by the cost of a step. -/
inductive Serves : List Request → Nat → Processor σ → Nat → Processor σ → Prop where
  | done {clock : Nat} {p : Processor σ} : Serves [] clock p clock p
  | step {request : Request} {requests : List Request} {clock cost last : Nat}
      {p q final : Processor σ} (below : clock < request.time) (stepped : p.step = (.ok cost, q))
      (rest : Serves (request :: requests) (clock + cost) q last final) :
      Serves (request :: requests) clock p last final
  | request {request : Request} {requests : List Request} {clock last : Nat}
      {p final : Processor σ} (reached : request.time ≤ clock)
      (rest : Serves requests clock (p.requestInterrupt request.vector) last final) :
      Serves (request :: requests) clock p last final

namespace Serves

variable {requests : List Request} {clock last : Nat} {p final : Processor σ}

theorem append {first second : List Request} {middle : Nat} {q : Processor σ}
    (served : Serves first clock p middle q) (later : Serves second middle q last final) :
    Serves (first ++ second) clock p last final := by
  induction served with
  | done => exact later
  | step below stepped _ ih => exact .step below stepped (ih later)
  | request reached _ ih => exact .request reached (ih later)

theorem deterministic {last' : Nat} {final' : Processor σ}
    (h : Serves requests clock p last final) (h' : Serves requests clock p last' final') :
    last' = last ∧ final' = final := by
  induction h with
  | done =>
      cases h'
      exact ⟨rfl, rfl⟩
  | step below stepped _ ih =>
      cases h' with
      | step _ stepped' rest' =>
          cases stepped.symm.trans stepped'
          exact ih rest'
      | request reached' _ => omega
  | request reached _ ih =>
      cases h' with
      | step below' _ _ => omega
      | request _ rest' => exact ih rest'

theorem delay (base : Nat) (h : Serves requests clock p last final) :
    Serves (requests.map fun request => ⟨base + request.time, request.vector⟩) (base + clock) p
      (base + last) final := by
  induction h with
  | done => exact .done
  | step below stepped _ ih =>
      rw [← Nat.add_assoc] at ih
      exact .step (Nat.add_lt_add_left below base) stepped ih
  | request reached _ ih => exact .request (Nat.add_le_add_left reached base) ih

/-! ### The clock -/

theorem clock_le (h : Serves requests clock p last final) : clock ≤ last := by
  induction h with
  | done => exact Nat.le_refl _
  | step _ _ _ ih => omega
  | request _ _ ih => exact ih

theorem time_le (h : Serves requests clock p last final) :
    ∀ request ∈ requests, request.time ≤ last := by
  induction h with
  | done => simp
  | step _ _ _ ih => exact ih
  | request reached rest ih =>
      have grown := rest.clock_le
      intro request listed
      rcases List.mem_cons.mp listed with rfl | later
      · omega
      · exact ih request later

theorem lt_of_horizon {horizon : Nat} (h : Serves requests clock p last final)
    (within : ∀ request ∈ requests, request.time ≤ horizon) :
    last < max (clock + 1) (horizon + 18) := by
  induction h with
  | done => omega
  | step below stepped _ ih =>
      have price := Processor.cost_of_step stepped
      have soon := within _ List.mem_cons_self
      have later := ih within
      omega
  | request _ _ ih => exact ih fun request listed => within request (List.mem_cons_of_mem _ listed)

end Serves

end Processor

namespace Monitor

variable {σ : Type} {target clock last : Nat} {m after : Monitor σ}

theorem step_processor_of_ok {cost : Nat} (h : m.step = (.ok cost, after)) :
    m.processor.step = (.ok cost, after.processor) := by
  apply Prod.ext
  · rw [← step_outcome, h]
  · rw [← step_processor, h]

theorem serves_of_runUntil (vector : UInt8) (h : m.runUntil target clock = (none, last, after)) :
    Processor.Serves [⟨target, vector⟩] clock m.processor last
      (after.processor.requestInterrupt vector) := by
  induction distance : target - clock using Nat.strongRecOn generalizing clock m with
  | ind distance ih =>
      by_cases below : clock < target
      · cases stepped : m.step with
        | mk outcome next =>
            cases outcome with
            | error fault =>
                rw [runUntil_of_fault below stepped] at h
                cases h
            | ok cost =>
                have price := cost_of_step stepped
                rw [runUntil_of_step below stepped] at h
                have later := ih (target - (clock + cost)) (by omega) h rfl
                exact .step below (step_processor_of_ok stepped) later
      · have reached : target ≤ clock := by omega
        rw [runUntil_of_ge m reached] at h
        cases h
        exact .request reached .done

end Monitor

namespace Invaders

namespace Machine

variable {m after : Machine} {spent target : Nat} {vector : UInt8}

/-! ## One frame -/

theorem serves_of_runToInterrupt (h : m.runToInterrupt target vector = (none, after)) :
    Processor.Serves [⟨target, vector⟩] m.frameCycles m.cpu.processor after.frameCycles
        after.cpu.processor ∧
      after.configuration = m.configuration := by
  obtain ⟨configuration, cpu, frameCycles⟩ := m
  cases ran : cpu.runUntil target frameCycles with
  | mk outcome rest =>
      obtain ⟨last, stopped⟩ := rest
      simp only [runToInterrupt, ran] at h
      cases outcome with
      | some fault => cases h
      | none =>
          cases h
          exact ⟨Monitor.serves_of_runUntil vector ran, rfl⟩

theorem stepFrame_of_runUntil {middle last : Nat} {half whole : Monitor Board}
    (first : m.cpu.runUntil (m.configuration.cyclesPerFrame / 2) m.frameCycles =
      (none, middle, half))
    (second : (half.requestInterrupt midScreenVector).runUntil m.configuration.cyclesPerFrame
      middle = (none, last, whole)) :
    m.stepFrame = (.ok (last - m.frameCycles),
      ⟨m.configuration, whole.requestInterrupt endOfScreenVector,
        last - m.configuration.cyclesPerFrame⟩) := by
  simp only [stepFrame, runToInterrupt, first, second]

/-- The requests of a frame, by the cycle of the frame. -/
def frameRequests (length : Nat) : List Request :=
  [⟨length / 2, midScreenVector⟩, ⟨length, endOfScreenVector⟩]

/-- A frame serves its two requests. The clock before it is rebased is what the next
frame finds, and a frame ahead. -/
theorem serves_of_stepFrame (h : m.stepFrame = (.ok spent, after)) :
    Processor.Serves (frameRequests m.configuration.cyclesPerFrame) m.frameCycles m.cpu.processor
        (after.frameCycles + m.configuration.cyclesPerFrame) after.cpu.processor ∧
      m.frameCycles + spent = after.frameCycles + m.configuration.cyclesPerFrame ∧
      after.configuration = m.configuration := by
  unfold stepFrame at h
  cases first : m.runToInterrupt (m.configuration.cyclesPerFrame / 2) midScreenVector with
  | mk outcome middle =>
      cases outcome with
      | some fault =>
          simp only [first] at h
          cases h
      | none =>
          cases second : middle.runToInterrupt m.configuration.cyclesPerFrame endOfScreenVector with
          | mk outcome final =>
              simp only [first, second] at h
              cases outcome with
              | some fault => cases h
              | none =>
                  cases h
                  obtain ⟨served, kept⟩ := serves_of_runToInterrupt first
                  obtain ⟨served', kept'⟩ := serves_of_runToInterrupt second
                  have frame := served.append served'
                  have grown := frame.clock_le
                  have passed := frame.time_le ⟨m.configuration.cyclesPerFrame, endOfScreenVector⟩
                    (by simp)
                  simp only at passed
                  refine ⟨?_, ?_, ?_⟩
                  · simp only
                    rw [Nat.sub_add_cancel passed]
                    exact frame
                  · simp only
                    omega
                  · exact kept'.trans kept

/-! ## Many frames -/

/-- The requests of `count` frames from frame `first` on, by an absolute clock. -/
def schedule (length first count : Nat) : List Request :=
  (List.range' first count).flatMap fun k =>
    [⟨k * length + length / 2, midScreenVector⟩, ⟨(k + 1) * length, endOfScreenVector⟩]

theorem schedule_succ (length first count : Nat) :
    schedule length first (count + 1) =
      ((frameRequests length).map fun request => ⟨first * length + request.time, request.vector⟩) ++
        schedule length (first + 1) count := by
  have next : (first + 1) * length = first * length + length := Nat.succ_mul ..
  simp [schedule, frameRequests, List.range'_succ, next]

theorem time_le_of_mem_schedule {length first count : Nat} :
    ∀ request ∈ schedule length first count, request.time ≤ (first + count) * length := by
  intro request listed
  obtain ⟨k, inside, either⟩ := List.mem_flatMap.mp listed
  have early : k + 1 ≤ first + count := by
    have bound := List.mem_range'_1.mp inside
    omega
  have latest : (k + 1) * length ≤ (first + count) * length := Nat.mul_le_mul_right _ early
  have next : (k + 1) * length = k * length + length := Nat.succ_mul ..
  rcases List.mem_cons.mp either with rfl | either
  · simp only
    omega
  · rw [List.mem_singleton] at either
    subst either
    exact latest

/-- Frames one after another that all succeed, with the cycles that each of them reports. -/
inductive FrameRun : Machine → List Nat → Machine → Prop where
  | done (m : Machine) : FrameRun m [] m
  | frame {m next after : Machine} {spent : Nat} {later : List Nat}
      (stepped : m.stepFrame = (.ok spent, next)) (rest : FrameRun next later after) :
      FrameRun m (spent :: later) after

theorem FrameRun.serves {reports : List Nat} (h : FrameRun m reports after) (first : Nat) :
    Processor.Serves (schedule m.configuration.cyclesPerFrame first reports.length)
        (first * m.configuration.cyclesPerFrame + m.frameCycles) m.cpu.processor
        ((first + reports.length) * m.configuration.cyclesPerFrame + after.frameCycles)
        after.cpu.processor ∧
      m.frameCycles + reports.sum =
        reports.length * m.configuration.cyclesPerFrame + after.frameCycles := by
  induction h generalizing first with
  | done m => exact ⟨.done, by simp⟩
  | @frame m next after spent later stepped _ ih =>
      obtain ⟨served, balance, same⟩ := serves_of_stepFrame stepped
      obtain ⟨servedLater, balanceLater⟩ := ih (first + 1)
      rw [same] at servedLater balanceLater
      have delayed := served.delay (first * m.configuration.cyclesPerFrame)
      have meeting :
          first * m.configuration.cyclesPerFrame +
              (next.frameCycles + m.configuration.cyclesPerFrame) =
            (first + 1) * m.configuration.cyclesPerFrame + next.frameCycles := by
        rw [Nat.succ_mul]
        omega
      rw [meeting] at delayed
      refine ⟨?_, ?_⟩
      · rw [List.length_cons, schedule_succ, Nat.add_comm later.length 1, ← Nat.add_assoc]
        exact delayed.append servedLater
      · rw [List.length_cons, List.sum_cons, Nat.succ_mul]
        omega

/-- Frames that all succeed are the one run on an absolute clock that serves the schedule.
Their reports add up to its cycles and the counter shows what it is ahead of whole frames.
In 32 bits, the counter at the end of a frame is still in range before it is rebased. -/
theorem frameRun_serves_schedule {reports : List Nat} (h : FrameRun m reports after) :
    (∀ clock final,
      Processor.Serves (schedule m.configuration.cyclesPerFrame 0 reports.length) m.frameCycles
          m.cpu.processor clock final ↔
        clock = m.frameCycles + reports.sum ∧ final = after.cpu.processor) ∧
      after.frameCycles + reports.length * m.configuration.cyclesPerFrame =
        m.frameCycles + reports.sum ∧
      (0 < reports.length → m.configuration.cyclesPerFrame ≤ 2 ^ 32 - 18 →
        m.frameCycles < 2 ^ 32 → after.frameCycles + m.configuration.cyclesPerFrame < 2 ^ 32) := by
  obtain ⟨served, balance⟩ := h.serves 0
  rw [Nat.zero_mul, Nat.zero_add, Nat.zero_add, ← balance] at served
  refine ⟨?_, ?_, ?_⟩
  · intro clock final
    constructor
    · intro other
      exact served.deterministic other
    · rintro ⟨rfl, rfl⟩
      exact served
  · omega
  · intro some short inside
    have horizon := served.lt_of_horizon time_le_of_mem_schedule
    obtain ⟨before, last⟩ := Nat.exists_eq_succ_of_ne_zero (Nat.ne_of_gt some)
    rw [Nat.zero_add, last, Nat.succ_mul] at horizon
    rw [last, Nat.succ_mul] at balance
    omega

/-- Frames of two cycles, so that one NOP lasts for two of them. -/
def hurried : Machine where
  configuration := ⟨2, 1, ⟨3, true⟩⟩
  cpu :=
    { processor := .new ⟨⟨#[0x00]⟩⟩ (Board.new ⟨3, true⟩).ports
      journal := ⟨none, #[]⟩
      remark := Monitor.silent }
  frameCycles := 0

theorem frameRun_serves_schedule_hurried : ∃ after, FrameRun hurried [4, 0] after ∧
    (∀ clock final, Processor.Serves (schedule 2 0 2) 0 hurried.cpu.processor clock final ↔
      clock = 4 ∧ final = after.cpu.processor) ∧
    after.frameCycles + 4 = 4 := by
  have stepped : hurried.cpu.step = (.ok 4, hurried.cpu.step.2) := rfl
  have half : hurried.cpu.runUntil 1 0 = (none, 4, hurried.cpu.step.2) := by
    rw [Monitor.runUntil_of_step (by decide) stepped, Monitor.runUntil_of_ge _ (by decide)]
  have first : hurried.stepFrame = (.ok 4, hurried.stepFrame.2) := by
    rw [stepFrame_of_runUntil (m := hurried) half (Monitor.runUntil_of_ge _ (by decide))]
    rfl
  have idle : hurried.stepFrame.2.stepFrame = (.ok 0, hurried.stepFrame.2.stepFrame.2) := by
    rw [stepFrame_of_runUntil (m := hurried) half (Monitor.runUntil_of_ge _ (by decide)),
      stepFrame_of_runUntil (Monitor.runUntil_of_ge _ (by decide))
        (Monitor.runUntil_of_ge _ (by decide))]
    rfl
  have run := FrameRun.frame first (.frame idle (.done _))
  obtain ⟨served, balance, -⟩ := frameRun_serves_schedule run
  exact ⟨_, run, served, balance⟩

end Machine

end Invaders

end Intel8080
