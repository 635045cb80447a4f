import Intel8080.Proofs.Interrupts.Acceptance
import Intel8080.Proofs.Invaders.Conservation
import Intel8080.Proofs.Memory.Loading

/-!
# No request is lost while interrupts are on

In a frame of 36 cycles or more each half is longer than the overshoot of the dearest
instruction, so a step lies between any two requests. A step that starts with INTE set takes
what is in the slot. So a request is taken at once if INTE is set when it is made, and
otherwise by the first step that starts with INTE set; if there is none before the next
request, all steps up to there have started with INTE clear.
-/

namespace Intel8080

namespace Event

variable {σ : Type}

/-- A stretch of successful steps, at least one. -/
def Progress (events : List (Event σ)) : Prop :=
  events ≠ [] ∧ ∀ event ∈ events, ∃ before cost after,
    event = .step before cost ∧ before.step = (.ok cost, after)

/-- Some step of a stretch takes the request. -/
def Takes (events : List (Event σ)) (vector : UInt8) : Prop :=
  ∃ before cost, .step before cost ∈ events ∧ before.Dispatches vector

/-- Every step of a stretch starts with INTE clear. -/
def Masked (events : List (Event σ)) : Prop :=
  ∀ before cost, .step before cost ∈ events → before.core.interruptsEnabled = false

end Event

theorem Approaches.progress {σ : Type} {target clock last : Nat} {p final : Processor σ}
    {events : List (Event σ)} (h : Approaches target clock p events none last final)
    (below : clock < target) : Event.Progress events := by
  constructor
  · cases h with
    | reached enough => omega
    | step _ _ _ => simp
  · clear below
    generalize finished : (none : Option Fault) = fault? at h
    induction h with
    | reached _ => simp
    | @step _ cost _ p q _ _ _ _ stepped _ ih =>
        intro event listed
        rcases List.mem_cons.mp listed with rfl | later
        · exact ⟨p, cost, q, rfl, stepped⟩
        · exact ih finished event later
    | fault _ _ => cases finished

/-! ## Runs with a step between any two requests -/

/-- A run of steps and requests with a step between any two requests. The flag says whether
a step has been taken since the last one. Between events the host may change anything but
the slot and INTE. -/
inductive Paced {σ : Type} : Bool → Processor σ → List (Event σ) → Processor σ → Prop where
  | done {rested : Bool} {p : Processor σ} : Paced rested p [] p
  | step {rested : Bool} {cost : Nat} {p q final : Processor σ} {events : List (Event σ)}
      (stepped : p.step = (.ok cost, q)) (rest : Paced true q events final) :
      Paced rested p (.step p cost :: events) final
  | request {vector : UInt8} {p final : Processor σ} {events : List (Event σ)}
      (rest : Paced false (p.requestInterrupt vector) events final) :
      Paced true p (.request p vector :: events) final
  | host {rested : Bool} {p q final : Processor σ} {events : List (Event σ)}
      (slot : q.core.pendingInterrupt = p.core.pendingInterrupt)
      (interrupts : q.core.interruptsEnabled = p.core.interruptsEnabled)
      (rest : Paced rested q events final) : Paced rested p events final

namespace Paced

variable {σ : Type} {rested : Bool} {cost : Nat} {p q final : Processor σ}
  {vector other : UInt8} {events earlier between later : List (Event σ)}

/-! ### Putting runs together -/

theorem prepend {target clock last : Nat} {steps : List (Event σ)}
    (h : Approaches target clock p steps none last q) (rest : Paced true q events final) :
    Paced true p (steps ++ events) final := by
  generalize finished : (none : Option Fault) = fault? at h
  induction h with
  | reached _ => exact rest
  | step _ stepped _ ih => exact .step stepped (ih rest finished)
  | fault _ _ => cases finished

theorem prepend_of_lt {target clock last : Nat} {steps : List (Event σ)}
    (h : Approaches target clock p steps none last q) (below : clock < target)
    (rest : Paced true q events final) : Paced rested p (steps ++ events) final := by
  cases h with
  | reached enough => omega
  | step _ stepped tail => exact .step stepped (prepend tail rest)

/-! ### Taking runs apart -/

theorem of_nil (h : Paced rested p [] final) :
    final.core.pendingInterrupt = p.core.pendingInterrupt ∧
      final.core.interruptsEnabled = p.core.interruptsEnabled := by
  generalize nothing : [] = events at h
  induction h with
  | done => exact ⟨rfl, rfl⟩
  | step _ _ _ => cases nothing
  | request _ _ => cases nothing
  | host slot interrupts _ ih =>
      obtain ⟨slot', interrupts'⟩ := ih nothing
      exact ⟨slot'.trans slot, interrupts'.trans interrupts⟩

theorem of_step (h : Paced rested p (.step q cost :: events) final) :
    q.core.pendingInterrupt = p.core.pendingInterrupt ∧
      q.core.interruptsEnabled = p.core.interruptsEnabled ∧
      ∃ next, q.step = (.ok cost, next) ∧ Paced true next events final := by
  generalize first : .step q cost :: events = all at h
  induction h with
  | done => cases first
  | step stepped rest =>
      cases first
      exact ⟨rfl, rfl, _, stepped, rest⟩
  | request _ _ => cases first
  | host slot interrupts _ ih =>
      obtain ⟨slot', interrupts', rest⟩ := ih first
      exact ⟨slot'.trans slot, interrupts'.trans interrupts, rest⟩

theorem of_request (h : Paced rested p (.request q vector :: events) final) :
    q.core.pendingInterrupt = p.core.pendingInterrupt ∧ rested = true ∧
      Paced false (q.requestInterrupt vector) events final := by
  generalize first : .request q vector :: events = all at h
  induction h with
  | done => cases first
  | step _ _ _ => cases first
  | request rest =>
      cases first
      exact ⟨rfl, rfl, rest⟩
  | host slot _ _ ih =>
      obtain ⟨slot', asked⟩ := ih first
      exact ⟨slot'.trans slot, asked⟩

theorem not_fault {cause : Fault} : ¬ Paced rested p (.fault q cause :: events) final := by
  intro h
  generalize first : .fault q cause :: events = all at h
  induction h with
  | done => cases first
  | step _ _ _ => cases first
  | request _ _ => cases first
  | host _ _ _ ih => exact ih first

theorem after_request (h : Paced rested p (earlier ++ .request q vector :: later) final) :
    Paced false (q.requestInterrupt vector) later final := by
  induction earlier generalizing rested p with
  | nil => exact h.of_request.2.2
  | cons event earlier ih =>
      cases event with
      | step before cost =>
          obtain ⟨-, -, next, -, rest⟩ := h.of_step
          exact ih rest
      | fault before cause => exact absurd h not_fault
      | request before asked => exact ih h.of_request.2.2

theorem steps_of_unasked (h : Paced rested p (between ++ later) final)
    (unasked : Event.requests between = []) :
    ∀ event ∈ between, ∃ before cost after,
      event = .step before cost ∧ before.step = (.ok cost, after) := by
  induction between generalizing rested p with
  | nil => simp
  | cons event between ih =>
      cases event with
      | step before cost =>
          obtain ⟨-, -, next, stepped, rest⟩ := h.of_step
          intro event listed
          rcases List.mem_cons.mp listed with rfl | later
          · exact ⟨before, cost, next, rfl, stepped⟩
          · exact ih rest unasked event later
      | fault before cause => exact absurd h not_fault
      | request before asked => simp at unasked

theorem progress (h : Paced false p (between ++ .request q vector :: later) final)
    (unasked : Event.requests between = []) : Event.Progress between := by
  refine ⟨?_, h.steps_of_unasked unasked⟩
  rintro rfl
  cases h.of_request.2.1

/-! ### The slot along a run -/

theorem empty_of_empty (h : Paced rested p (between ++ .request q vector :: later) final)
    (unasked : Event.requests between = []) (empty : p.core.pendingInterrupt = none) :
    q.core.pendingInterrupt = none := by
  induction between generalizing rested p with
  | nil => exact h.of_request.1.trans empty
  | cons event between ih =>
      cases event with
      | step before cost =>
          obtain ⟨slot, -, next, stepped, rest⟩ := h.of_step
          have kept := Processor.pendingInterrupt_of_step stepped
          rw [slot, empty, ite_self] at kept
          exact ih rest unasked kept
      | fault before cause => exact absurd h not_fault
      | request before asked => simp at unasked

/-- At the next request, the one before has been taken and the slot is empty, or no step
could take it. -/
theorem takes_or_masked (h : Paced rested p (between ++ .request q other :: later) final)
    (unasked : Event.requests between = []) (waiting : p.core.pendingInterrupt = some vector) :
    (Event.Takes between vector ∧ q.core.pendingInterrupt = none) ∨ Event.Masked between := by
  induction between generalizing rested p with
  | nil =>
      refine .inr ?_
      intro before cost listed
      cases listed
  | cons event between ih =>
      cases event with
      | step before cost =>
          obtain ⟨slot, -, next, stepped, rest⟩ := h.of_step
          have full := slot.trans waiting
          cases enabled : before.core.interruptsEnabled with
          | true =>
              have dispatching := Processor.dispatches_iff.mpr ⟨enabled, full⟩
              have emptied := Processor.pendingInterrupt_of_dispatch dispatching stepped
              exact .inl ⟨⟨before, cost, List.mem_cons_self, dispatching⟩,
                rest.empty_of_empty unasked emptied⟩
          | false =>
              have kept := Processor.pendingInterrupt_of_disabled enabled
              rw [stepped] at kept
              rcases ih rest unasked (kept.trans full) with ⟨taken, emptied⟩ | masked
              · obtain ⟨other, price, listed, dispatching⟩ := taken
                exact .inl ⟨⟨other, price, List.mem_cons_of_mem _ listed, dispatching⟩, emptied⟩
              · refine .inr ?_
                intro other price listed
                rcases List.mem_cons.mp listed with same | later
                · cases same
                  exact enabled
                · exact masked other price later
      | fault before cause => exact absurd h not_fault
      | request before asked => simp at unasked

theorem next_dispatches (h : Paced false p events final)
    (waiting : p.core.pendingInterrupt = some vector)
    (enabled : p.core.interruptsEnabled = true) :
    (events = [] ∧ final.Dispatches vector) ∨
      ∃ before cost rest, events = .step before cost :: rest ∧ before.Dispatches vector := by
  cases events with
  | nil =>
      obtain ⟨slot, interrupts⟩ := h.of_nil
      exact .inl ⟨rfl,
        Processor.dispatches_iff.mpr ⟨interrupts.trans enabled, slot.trans waiting⟩⟩
  | cons event events =>
      cases event with
      | step before cost =>
          obtain ⟨slot, interrupts, -⟩ := h.of_step
          exact .inr ⟨before, cost, events, rfl,
            Processor.dispatches_iff.mpr ⟨interrupts.trans enabled, slot.trans waiting⟩⟩
      | fault before cause => exact absurd h not_fault
      | request before asked => cases h.of_request.2.1

end Paced

namespace Invaders

/-! ## Frames -/

namespace FrameCall

variable {length clock spent last : Nat} {p q final : Processor Board}
  {events later : List (Event Board)}

/-- A frame of 36 cycles that begins within the overshoot of the last one has a step in each
of its halves. -/
theorem halves (h : FrameCall length clock p events (.ok spent) last q) (long : 36 ≤ length)
    (near : clock ≤ 17) :
    ∃ first r second s,
      events = first ++ .request r midScreenVector :: (second ++ [.request s endOfScreenVector]) ∧
      Event.Progress first ∧ Event.Progress second := by
  generalize done : Except.ok spent = outcome at h
  cases h with
  | early first => cases done
  | late first second => cases done
  | complete first second =>
      have middle := first.last_of_done
      exact ⟨_, _, _, _, rfl, first.progress (by omega), second.progress (by omega)⟩

theorem paced {rested : Bool} (h : FrameCall length clock p events (.ok spent) last q)
    (long : 36 ≤ length) (near : clock ≤ 17) (rest : Paced false q later final) :
    Paced rested p (events ++ later) final := by
  generalize done : Except.ok spent = outcome at h
  cases h with
  | early first => cases done
  | late first second => cases done
  | complete first second =>
      have middle := first.last_of_done
      have secondHalf : Paced false _ _ final := .prepend_of_lt second (by omega) (.request rest)
      have firstHalf : Paced rested _ _ final :=
        .prepend_of_lt first (by omega) (.request secondHalf)
      simpa [List.append_assoc] using firstHalf

end FrameCall

/-! ## Histories -/

/-- An action between frames that leaves the slot and INTE alone and takes no step. -/
def HostAction.Quiet : HostAction → Prop
  | .frame | .step => False
  | .press _ _ | .loadRom _ => True
  | .adjust change => ∀ cpu : Monitor Board,
      (change cpu).processor.core.pendingInterrupt = cpu.processor.core.pendingInterrupt ∧
      (change cpu).processor.core.interruptsEnabled = cpu.processor.core.interruptsEnabled

theorem HostAction.Quiet.ne_frame {action : HostAction} (quiet : action.Quiet) :
    action ≠ .frame := by
  rintro rfl
  exact quiet

namespace Machine

variable {m : Machine} {action : HostAction} {actions : List HostAction}

/-- A history in which all frames complete and only frames request interrupts. -/
inductive Undisturbed : Machine → List HostAction → Prop where
  | done {m : Machine} : Undisturbed m []
  | frame {m after : Machine} {spent : Nat} {rest : List HostAction}
      (completes : m.stepFrame = (.ok spent, after)) (later : Undisturbed after rest) :
      Undisturbed m (.frame :: rest)
  | host {m : Machine} {action : HostAction} {rest : List HostAction} (quiet : action.Quiet)
      (later : Undisturbed (m.act action) rest) : Undisturbed m (action :: rest)

theorem act_core_of_quiet (m : Machine) (quiet : action.Quiet) :
    (m.act action).cpu.processor.core.pendingInterrupt = m.cpu.processor.core.pendingInterrupt ∧
      (m.act action).cpu.processor.core.interruptsEnabled =
        m.cpu.processor.core.interruptsEnabled := by
  cases action with
  | frame => cases quiet
  | step => cases quiet
  | press control pressed => exact ⟨rfl, rfl⟩
  | adjust change => exact quiet m.cpu
  | loadRom rom =>
      rcases m.act_loadRom_cases rom with same | ⟨processor, journal, loaded, same⟩
      · rw [same]
        exact ⟨rfl, rfl⟩
      · obtain ⟨memory, -, rfl⟩ := Processor.exists_memory_of_load loaded
        rw [same]
        exact ⟨rfl, rfl⟩

namespace Undisturbed

theorem rest_of_cons {rest : List HostAction} (h : m.Undisturbed (action :: rest))
    (near : m.frameCycles ≤ 17) :
    (m.act action).Undisturbed rest ∧ (m.act action).frameCycles ≤ 17 := by
  cases h with
  | @frame _ after _ _ completes later =>
      have reached : m.act .frame = after := congrArg Prod.snd completes
      have counted := frameCycles_of_ok completes
      rw [reached]
      exact ⟨later, by omega⟩
  | host quiet later =>
      rw [act_frameCycles m quiet.ne_frame]
      exact ⟨later, near⟩

theorem rest_of_append {earlier later : List HostAction} (h : m.Undisturbed (earlier ++ later))
    (near : m.frameCycles ≤ 17) :
    (m.play earlier).Undisturbed later ∧ (m.play earlier).frameCycles ≤ 17 := by
  induction earlier generalizing m with
  | nil => exact ⟨h, near⟩
  | cons action earlier ih =>
      obtain ⟨tail, close⟩ := h.rest_of_cons near
      exact ih tail close

theorem frameCall {rest : List HostAction} (h : m.Undisturbed (.frame :: rest)) :
    ∃ spent, FrameCall m.configuration.cyclesPerFrame m.frameCycles m.cpu.processor m.frameEvents
      (.ok spent) (m.act .frame).frameCycles (m.act .frame).cpu.processor := by
  have call := m.tracedFrame_spec.2.1
  cases h with
  | @frame _ after spent _ completes later =>
      have outcome : m.stepFrame.1 = .ok spent := congrArg Prod.fst completes
      rw [outcome] at call
      exact ⟨spent, call⟩
  | host quiet later => cases quiet

theorem paced (h : m.Undisturbed actions) (long : 36 ≤ m.configuration.cyclesPerFrame)
    (near : m.frameCycles ≤ 17) :
    Paced false m.cpu.processor (m.frameHistory actions) (m.play actions).cpu.processor := by
  induction actions generalizing m with
  | nil => exact .done
  | cons action rest ih =>
      obtain ⟨later, close⟩ := h.rest_of_cons near
      have tail := ih later (by rw [act_configuration]; exact long) close
      by_cases frame : action = .frame
      · subst frame
        obtain ⟨spent, call⟩ := h.frameCall
        exact call.paced long near tail
      · cases h with
        | frame _ _ => exact absurd rfl frame
        | host quiet _ =>
            obtain ⟨slot, interrupts⟩ := m.act_core_of_quiet quiet
            have skipped : m.frameHistory (action :: rest) = (m.act action).frameHistory rest := by
              rw [frameHistory, collect, framed_of_ne_frame m frame]
              rfl
            rw [skipped]
            exact .host slot interrupts tail

end Undisturbed

/-- While only frames request interrupts and all of them complete, frames of 36 cycles or
more deliver their requests. Each half of a frame takes a step. A request is taken before
the next one replaces it, unless every step between the two starts with INTE clear. With
INTE set, it is taken by the very next step, which may still be to come. -/
theorem requests_delivered (h : m.Undisturbed actions)
    (long : 36 ≤ m.configuration.cyclesPerFrame) (near : m.frameCycles ≤ 17) :
    (∀ earlier later, actions = earlier ++ .frame :: later →
      ∃ first p second q,
        (m.play earlier).frameEvents =
          first ++ .request p midScreenVector :: (second ++ [.request q endOfScreenVector]) ∧
        Event.Progress first ∧ Event.Progress second) ∧
    (∀ earlier p vector between q other later,
      m.frameHistory actions =
        earlier ++ .request p vector :: (between ++ .request q other :: later) →
      Event.requests between = [] →
      Event.Progress between ∧
        ((Event.Takes between vector ∧ q.core.pendingInterrupt = none) ∨ Event.Masked between)) ∧
    ∀ earlier p vector later,
      m.frameHistory actions = earlier ++ .request p vector :: later →
      p.core.interruptsEnabled = true →
      (later = [] ∧ (m.play actions).cpu.processor.Dispatches vector) ∨
        ∃ before cost rest, later = .step before cost :: rest ∧ before.Dispatches vector := by
  have run := h.paced long near
  refine ⟨?_, ?_, ?_⟩
  · rintro earlier later rfl
    obtain ⟨rest, close⟩ := h.rest_of_append near
    obtain ⟨spent, call⟩ := rest.frameCall
    exact call.halves (by rw [play_configuration]; exact long) close
  · intro earlier p vector between q other later split unasked
    rw [split] at run
    have after := run.after_request
    exact ⟨after.progress unasked, after.takes_or_masked unasked rfl⟩
  · intro earlier p vector later split enabled
    rw [split] at run
    exact run.after_request.next_dispatches rfl enabled

/-- XTHL in the last cycle before the middle of the shortest frame. -/
def hurdling : Machine where
  configuration := ⟨36, 1, ⟨3, true⟩⟩
  cpu :=
    { processor :=
        { core :=
            { Core.cleared with
              registers := { Registers.cleared with sp := 6 }
              interruptsEnabled := true }
          memory := ⟨⟨#[0xe3, 0x00, 0x00, 0x00, 0x00, 0x00, 0x00, 0x00]⟩⟩
          ports := (Board.new ⟨3, true⟩).ports }
      journal := ⟨none, #[]⟩
      remark := Monitor.silent }
  frameCycles := 17

def hurdled : Processor Board :=
  hurdling.cpu.processor.step.2.requestInterrupt midScreenVector

theorem requests_delivered_hurdling :
    (∃ first p second q,
      hurdling.frameEvents =
        first ++ .request p midScreenVector :: (second ++ [.request q endOfScreenVector]) ∧
      Event.Progress first ∧ Event.Progress second) ∧
    hurdled.Dispatches midScreenVector ∧
    (hurdling.play [.frame]).cpu.processor.Dispatches endOfScreenVector := by
  have first : Approaches 18 17 hurdling.cpu.processor _ none 35 _ :=
    .step (by decide) rfl (.reached (by decide))
  have second : Approaches 36 35 hurdled _ none 46 _ :=
    .step (by decide) rfl (.reached (by decide))
  obtain ⟨events, outcome, -⟩ :=
    stepFrame_of_frameCall (m := hurdling) rfl rfl rfl (.complete first second)
  have calm : hurdling.Undisturbed [.frame] := .frame (Prod.ext outcome rfl) .done
  have history : hurdling.frameHistory [.frame] =
      [.step hurdling.cpu.processor 18] ++
        .request hurdling.cpu.processor.step.2 midScreenVector ::
          [.step hurdled 11, .request hurdled.step.2 endOfScreenVector] := by
    have whole : hurdling.frameHistory [.frame] = hurdling.frameEvents := List.append_nil _
    rw [whole, events]
    rfl
  obtain ⟨halves, -, next⟩ := requests_delivered calm (by decide) (by decide)
  have middle := next _ _ _ _ history rfl
  have ending := next _ _ _ _ (history.trans (List.append_assoc [_] [_, _] [_]).symm) rfl
  refine ⟨halves [] [] rfl, ?_, ?_⟩
  · rcases middle with ⟨short, -⟩ | ⟨before, cost, rest, same, taken⟩
    · cases short
    · cases same
      exact taken
  · rcases ending with ⟨-, waiting⟩ | ⟨before, cost, rest, same, -⟩
    · exact waiting
    · cases same

end Machine

end Invaders

end Intel8080
