import Mathlib.Algebra.GroupWithZero.Nat
import Intel8080.Proofs.Invaders.Hosting

/-!
# The counter of the frame balances

Every cycle that a step takes inside a frame is either part of a completed frame or still
on the counter, whatever the host does in between and wherever frames fail. The counter
stays below the length of a frame, or below the dearest instruction if frames are shorter.
-/

namespace Intel8080.Invaders

namespace FrameCall

variable {length clock last : Nat} {p q : Processor Board} {events : List (Event Board)}

theorem of_error {cause : Fault} (h : FrameCall length clock p events (.error cause) last q) :
    last = clock + Event.elapsed events ∧ last < length := by
  cases h with
  | early first =>
      have stopped := first.last_of_fault
      have counted := first.last_eq
      omega
  | late first second =>
      have stopped := second.last_of_fault
      have counted := first.last_eq
      have countedLater := second.last_eq
      simp only [Event.elapsed_append, Event.elapsed_cons, Event.cycles]
      omega

theorem of_ok {spent : Nat} (h : FrameCall length clock p events (.ok spent) last q) :
    spent = Event.elapsed events ∧
      last + length = clock + Event.elapsed events ∧
      last + length ≤ max clock (length + 17) := by
  generalize done : Except.ok spent = outcome at h
  cases h with
  | early first => cases done
  | late first second => cases done
  | complete first second =>
      have middle := first.last_of_done
      have reached := second.last_of_done
      have counted := first.last_eq
      have countedLater := second.last_eq
      injection done with spent_eq
      simp only [Event.elapsed_append, Event.elapsed_cons, Event.elapsed_nil, Event.cycles]
      omega

/-- No moment of a call is later than its end, and that is less than the dearest
instruction past the frame. -/
theorem clock_le {outcome : Except Fault Nat} (h : FrameCall length clock p events outcome last q)
    {earlier later : List (Event Board)} (split : events = earlier ++ later) :
    clock + Event.elapsed earlier ≤ max clock (length + 17) := by
  have whole : Event.elapsed events = Event.elapsed earlier + Event.elapsed later := by
    rw [split, Event.elapsed_append]
  cases outcome with
  | error cause =>
      have ending := h.of_error
      omega
  | ok spent =>
      have ending := h.of_ok
      omega

end FrameCall

namespace Machine

/-! ## One action -/

theorem frameCycles_of_error {m after : Machine} {cause : Fault}
    (h : m.stepFrame = (.error cause, after)) :
    after.frameCycles = m.frameCycles + Event.elapsed m.frameEvents ∧
      after.frameCycles < m.configuration.cyclesPerFrame := by
  have call := m.tracedFrame_spec.2.1
  rw [h] at call
  exact call.of_error

theorem frameCycles_of_ok {m after : Machine} {spent : Nat} (h : m.stepFrame = (.ok spent, after)) :
    spent = Event.elapsed m.frameEvents ∧
      after.frameCycles + m.configuration.cyclesPerFrame =
        m.frameCycles + Event.elapsed m.frameEvents ∧
      after.frameCycles + m.configuration.cyclesPerFrame ≤
        max m.frameCycles (m.configuration.cyclesPerFrame + 17) := by
  have call := m.tracedFrame_spec.2.1
  rw [h] at call
  exact call.of_ok

/-- What an action adds to the counter comes from its steps, less one frame if it
completes one. -/
theorem balance_act (m : Machine) (action : HostAction) :
    m.frameCycles + Event.elapsed (m.framed action) =
      (m.reported action).length * m.configuration.cyclesPerFrame +
        (m.act action).frameCycles := by
  cases action with
  | frame =>
      cases ran : m.stepFrame with
      | mk outcome after =>
          cases outcome with
          | error cause =>
              have counted := frameCycles_of_error ran
              simp only [framed, reported, act, ran, List.length_nil]
              omega
          | ok spent =>
              have counted := frameCycles_of_ok ran
              simp only [framed, reported, act, ran, List.length_singleton]
              omega
  | _ =>
      rw [act_frameCycles m (by simp), framed_of_ne_frame m (by simp),
        reported_of_ne_frame m (by simp)]
      simp

theorem frameCycles_act_lt {m : Machine} (action : HostAction)
    (h : m.frameCycles < max m.configuration.cyclesPerFrame 18) :
    (m.act action).frameCycles < max m.configuration.cyclesPerFrame 18 := by
  cases action with
  | frame =>
      cases ran : m.stepFrame with
      | mk outcome after =>
          simp only [act, ran]
          cases outcome with
          | error cause =>
              have counted := frameCycles_of_error ran
              omega
          | ok spent =>
              have counted := frameCycles_of_ok ran
              omega
  | _ =>
      rw [act_frameCycles m (by simp)]
      exact h

/-! ## Histories -/

theorem balance_play (m : Machine) (actions : List HostAction) :
    m.frameCycles + Event.elapsed (m.frameHistory actions) =
      m.completed actions * m.configuration.cyclesPerFrame + (m.play actions).frameCycles := by
  induction actions generalizing m with
  | nil => simp [frameHistory, completed, collect, play]
  | cons action rest ih =>
      have now := m.balance_act action
      have later := ih (m.act action)
      have unfolded : (m.play (action :: rest)) = (m.act action).play rest := rfl
      rw [act_configuration] at later
      simp only [frameHistory, completed, collect, Event.elapsed_append, List.length_append,
        Nat.add_mul, unfolded] at later ⊢
      omega

theorem frameCycles_play_lt {m : Machine} (actions : List HostAction)
    (h : m.frameCycles < max m.configuration.cyclesPerFrame 18) :
    (m.play actions).frameCycles < max m.configuration.cyclesPerFrame 18 := by
  induction actions generalizing m with
  | nil => exact h
  | cons action rest ih =>
      have next := frameCycles_act_lt action h
      have later := ih (m := m.act action) (by rw [act_configuration]; exact next)
      rwa [act_configuration] at later

/-! ## The subtractions of a frame -/

theorem frameCycles_of_runToInterrupt {m after : Machine} {target : Nat} {vector : UInt8}
    (h : m.runToInterrupt target vector = (none, after)) :
    m.frameCycles ≤ after.frameCycles ∧ target ≤ after.frameCycles ∧
      after.frameCycles ≤ max m.frameCycles (target + 17) := by
  obtain ⟨events, fault?, last, cpu, run, cases⟩ := m.tracedToInterrupt_cases target vector
  rcases cases with ⟨rfl, -, ran⟩ | ⟨cause, rfl, -, ran⟩
  · cases h.symm.trans ran
    have reached := run.last_of_done
    have counted := run.last_eq
    simp only
    omega
  · cases h.symm.trans ran

/-- The books of a machine, from a start or a reset on. The cycles of all steps taken in
frames are the completed frames and what is on the counter. In a frame that comes next, the
counter stays in range at every moment, both subtractions are of numbers that are not
larger, and what it reports is what its steps have cost. -/
theorem cycles_conserved {m : Machine} (start : Started m)
    (short : m.configuration.cyclesPerFrame ≤ 2 ^ 32 - 18) (actions : List HostAction) :
    Event.elapsed (m.frameHistory actions) =
        m.completed actions * m.configuration.cyclesPerFrame + (m.play actions).frameCycles ∧
      (m.play actions).frameCycles < max m.configuration.cyclesPerFrame 18 ∧
      (m.play actions).tracedFrame.2 = (m.play actions).stepFrame ∧
      (∀ earlier later, (m.play actions).frameEvents = earlier ++ later →
        (m.play actions).frameCycles + Event.elapsed earlier < 2 ^ 32) ∧
      (∀ half whole,
        (m.play actions).runToInterrupt (m.configuration.cyclesPerFrame / 2) midScreenVector =
          (none, half) →
        half.runToInterrupt m.configuration.cyclesPerFrame endOfScreenVector = (none, whole) →
        (m.play actions).frameCycles ≤ whole.frameCycles ∧
          m.configuration.cyclesPerFrame ≤ whole.frameCycles) ∧
      ∀ spent after, (m.play actions).stepFrame = (.ok spent, after) →
        spent = Event.elapsed (m.play actions).frameEvents ∧ after.frameCycles ≤ 17 := by
  have empty := start.frameCycles_eq_zero
  have balance := m.balance_play actions
  have inside := frameCycles_play_lt (m := m) actions (by omega)
  refine ⟨by omega, inside, (m.play actions).tracedFrame_spec.1, ?_, ?_, ?_⟩
  · intro earlier later split
    have moment := (m.play actions).tracedFrame_spec.2.1.clock_le split
    rw [play_configuration] at moment
    omega
  · intro half whole first second
    have firstEnd := frameCycles_of_runToInterrupt first
    have secondEnd := frameCycles_of_runToInterrupt second
    omega
  · intro spent after completes
    have counted := frameCycles_of_ok completes
    rw [play_configuration] at counted
    refine ⟨counted.1, ?_⟩
    omega

/-- NOP and then HLT, in frames of six cycles. -/
def halting : Machine :=
  reset
    { configuration := ⟨6, 1, ⟨3, true⟩⟩
      cpu :=
        { processor := .new ⟨⟨#[0x00, 0x76]⟩⟩ (Board.new ⟨3, true⟩).ports
          journal := ⟨none, #[]⟩
          remark := Monitor.silent }
      frameCycles := 5 }

def halted : Processor Board :=
  halting.cpu.processor.step.2.requestInterrupt midScreenVector

def mended : Processor Board :=
  { halted with memory := halted.memory.store 1 0x00 }

theorem cycles_conserved_mended : ∃ after,
    halting.stepFrame.1 = .error (.unimplementedOpcode 0x76 1) ∧
      (halting.play [.frame, .patch 1 0x00]).stepFrame = (.ok 4, after) ∧
      Event.elapsed (halting.frameHistory [.frame, .patch 1 0x00]) = 4 ∧
      Event.elapsed (halting.play [.frame, .patch 1 0x00]).frameEvents = 4 ∧
      after.frameCycles ≤ 17 := by
  have first : Approaches 3 0 halting.cpu.processor _ none 4 _ :=
    .step (by decide) rfl (.reached (by decide))
  have second : Approaches 6 4 halted _ (some (.unimplementedOpcode 0x76 1)) 4 halted :=
    .fault (by decide) rfl
  obtain ⟨-, failed, counter, stopped⟩ :=
    stepFrame_of_frameCall (m := halting) rfl rfl rfl (.late first second)
  have half : Approaches 3 4 mended _ none 4 _ := .reached (by decide)
  have rest : Approaches 6 4 (mended.requestInterrupt midScreenVector) _ none 8 _ :=
    .step (by decide) rfl (.reached (by decide))
  have long : (halting.play [.frame, .patch 1 0x00]).configuration.cyclesPerFrame = 6 := by
    rw [play_configuration]
    rfl
  have clock : (halting.play [.frame, .patch 1 0x00]).frameCycles = 4 := counter
  have patched : (halting.play [.frame, .patch 1 0x00]).cpu.processor =
      { halting.stepFrame.2.cpu.processor with
        memory := halting.stepFrame.2.cpu.processor.memory.store 1 0x00 } := rfl
  rw [stopped] at patched
  obtain ⟨-, completes, -⟩ := stepFrame_of_frameCall long clock patched (.complete half rest)
  have done : (halting.play [.frame, .patch 1 0x00]).stepFrame = (.ok 4, _) :=
    Prod.ext completes rfl
  obtain ⟨balance, -, -, -, -, frame⟩ :=
    cycles_conserved (m := halting) (.reset _) (by decide) [.frame, .patch 1 0x00]
  obtain ⟨paid, near⟩ := frame _ _ done
  have unfinished : halting.completed [.frame, .patch 1 0x00] = 0 := by
    simp only [completed, collect, reported, failed, HostAction.patch]
    rfl
  rw [unfinished, clock] at balance
  exact ⟨_, failed, done, by omega, paid.symm, near⟩

end Machine

end Intel8080.Invaders
