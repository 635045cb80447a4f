import Mathlib.Data.List.DropRight
import Intel8080.Proofs.Invaders.Hosting
import Intel8080.Proofs.Invaders.Wiring
import Intel8080.Proofs.Memory.Loading

/-!
# The life of a board

A host calls a machine in any order, and the processor may do anything to it. What reaches
the board is a list of happenings: steps, of which some send a byte, controls that are
pressed or released, and resets. The board is a fold over that list.
-/

namespace Intel8080.Invaders

/-- A host that changes the processor leaves the ports alone, and with them the board. -/
def HostAction.KeepsPorts : HostAction → Prop
  | .adjust change => ∀ cpu, (change cpu).processor.ports = cpu.processor.ports
  | _ => True

inductive Call where
  | act (action : HostAction) (keeps : action.KeepsPorts)
  | reset

inductive Happening where
  | event (event : Event Board)
  | press (control : Control) (pressed : Bool)
  | reset

/-! ## Histories of calls -/

def stepEvent (p : Processor Board) : Event Board :=
  match p.step.1 with
  | .ok cost => .step p cost
  | .error cause => .fault p cause

namespace Machine

def serve (m : Machine) : Call → Machine
  | .act action _ => m.act action
  | .reset => m.reset

def serveAll (m : Machine) (calls : List Call) : Machine :=
  calls.foldl serve m

/-- What a call makes happen. Loading a program and changing the processor do not reach the
board. -/
def happenings (m : Machine) : Call → List Happening
  | .act .frame _ => m.frameEvents.map .event
  | .act .step _ => [.event (stepEvent m.cpu.processor)]
  | .act (.press control pressed) _ => [.press control pressed]
  | .act (.loadRom _) _ => []
  | .act (.adjust _) _ => []
  | .reset => [.reset]

def history : Machine → List Call → List Happening
  | _, [] => []
  | m, call :: later => m.happenings call ++ (m.serve call).history later

end Machine

/-! ## What a board undergoes -/

/-- One happening, with the processor before and after it. -/
inductive Suffers (switches : Switches) : Processor Board → Happening → Processor Board → Prop where
  | step {cost : Nat} {p q : Processor Board} (stepped : p.step = (.ok cost, q)) :
      Suffers switches p (.event (.step p cost)) q
  | fault {cause : Fault} {p q : Processor Board} (failed : p.step = (.error cause, q)) :
      Suffers switches p (.event (.fault p cause)) q
  | request {vector : UInt8} {p : Processor Board} :
      Suffers switches p (.event (.request p vector)) (p.requestInterrupt vector)
  | press {control : Control} {pressed : Bool} {p q : Processor Board}
      (ports : q.ports = { p.ports with device := p.ports.device.setControl control pressed }) :
      Suffers switches p (.press control pressed) q
  | reset {p q : Processor Board} (ports : q.ports = { p.ports with device := .new switches }) :
      Suffers switches p .reset q

/-- Happenings in order. Between two of them the host may change anything but the ports. -/
inductive Undergoes (switches : Switches) :
    Processor Board → List Happening → Processor Board → Prop where
  | done {p : Processor Board} : Undergoes switches p [] p
  | next {p q final : Processor Board} {happening : Happening} {later : List Happening}
      (suffered : Suffers switches p happening q) (rest : Undergoes switches q later final) :
      Undergoes switches p (happening :: later) final
  | host {p q final : Processor Board} {later : List Happening} (ports : q.ports = p.ports)
      (rest : Undergoes switches q later final) : Undergoes switches p later final

namespace Undergoes

variable {switches : Switches} {p q final : Processor Board} {earlier later : List Happening}
  {happening : Happening}

theorem single (h : Suffers switches p happening q) : Undergoes switches p [happening] q :=
  .next h .done

theorem append (h : Undergoes switches p earlier q) (rest : Undergoes switches q later final) :
    Undergoes switches p (earlier ++ later) final := by
  induction h with
  | done => exact rest
  | next suffered _ ih => exact .next suffered (ih rest)
  | host ports _ ih => exact .host ports (ih rest)

/-! ### Calls -/

theorem of_approaches {target clock last : Nat} {events : List (Event Board)}
    {fault? : Option Fault} (h : Approaches target clock p events fault? last q) :
    Undergoes switches p (events.map .event) q := by
  induction h with
  | reached _ => exact .done
  | step _ stepped _ ih => exact .next (.step stepped) ih
  | fault _ failed => exact single (.fault failed)

theorem of_frameCall {length clock last : Nat} {events : List (Event Board)}
    {outcome : Except Fault Nat} (h : FrameCall length clock p events outcome last q) :
    Undergoes switches p (events.map .event) q := by
  cases h with
  | early first => exact of_approaches first
  | late first second =>
      rw [List.map_append, List.map_cons]
      exact (of_approaches first).append (.next .request (of_approaches second))
  | complete first second =>
      rw [List.map_append, List.map_cons, List.map_append]
      exact (of_approaches first).append
        (.next .request ((of_approaches second).append (single .request)))

theorem of_stepEvent (p : Processor Board) :
    Undergoes switches p [.event (stepEvent p)] p.step.2 := by
  unfold stepEvent
  cases stepped : p.step with
  | mk outcome q =>
      cases outcome with
      | ok cost => exact single (.step stepped)
      | error cause => exact single (.fault stepped)

theorem of_serve (m : Machine) (call : Call) :
    Undergoes m.configuration.switches m.cpu.processor (m.happenings call)
      (m.serve call).cpu.processor := by
  cases call with
  | reset => exact single (.reset rfl)
  | act action keeps =>
      cases action with
      | frame => exact of_frameCall m.tracedFrame_spec.2.1
      | step => exact of_stepEvent m.cpu.processor
      | press control pressed => exact single (.press rfl)
      | adjust change => exact .host (keeps m.cpu) .done
      | loadRom rom =>
          rcases m.act_loadRom_cases rom with same | ⟨processor, journal, loaded, same⟩
          · exact .host (congrArg (fun m => m.cpu.processor.ports) same) .done
          · obtain ⟨memory, -, rfl⟩ := Processor.exists_memory_of_load loaded
            exact .host (congrArg (fun m => m.cpu.processor.ports) same) .done

/-! ### Taking histories apart -/

theorem exists_next (h : Undergoes switches p (happening :: later) final) :
    ∃ q r, q.ports = p.ports ∧ Suffers switches q happening r ∧
      Undergoes switches r later final := by
  generalize whole : happening :: later = history at h
  induction h with
  | done => cases whole
  | next suffered rest =>
      cases whole
      exact ⟨_, _, rfl, suffered, rest⟩
  | host ports _ ih =>
      obtain ⟨q, r, same, suffered, rest⟩ := ih whole
      exact ⟨q, r, same.trans ports, suffered, rest⟩

end Undergoes

namespace Machine

theorem serve_configuration (m : Machine) (call : Call) :
    (m.serve call).configuration = m.configuration := by
  cases call with
  | reset => rfl
  | act action keeps => exact m.act_configuration action

theorem undergoes_history (m : Machine) (calls : List Call) :
    Undergoes m.configuration.switches m.cpu.processor (m.history calls)
      (m.serveAll calls).cpu.processor := by
  induction calls generalizing m with
  | nil => exact .done
  | cons call later ih =>
      have rest := ih (m.serve call)
      rw [serve_configuration] at rest
      exact (Undergoes.of_serve m call).append rest

end Machine

/-! ## The board as a fold -/

namespace Board

def undergo (switches : Switches) (b : Board) : Happening → Board
  | .event (.step before _) => b.receive (sent? before)
  | .event (.fault _ _) => b
  | .event (.request _ _) => b
  | .press control pressed => b.setControl control pressed
  | .reset => .new switches

def after (switches : Switches) (history : List Happening) : Board :=
  history.foldl (undergo switches) (.new switches)

theorem after_concat (switches : Switches) (history : List Happening) (happening : Happening) :
    after switches (history ++ [happening]) =
      (after switches history).undergo switches happening := by
  rw [after, List.foldl_append]
  rfl

end Board

section

variable {switches : Switches} {board : Board} {p q final : Processor Board}
  {history earlier later : List Happening} {happening : Happening}

theorem Suffers.ports_eq (h : Suffers switches p happening q) (start : p.ports = board.ports) :
    q.ports = (board.undergo switches happening).ports := by
  cases h with
  | step stepped => exact Wired.ports_of_step start stepped
  | fault failed =>
      rw [Processor.eq_of_step_error failed]
      exact start
  | request => exact start
  | press ports =>
      rw [start] at ports
      exact ports
  | reset ports =>
      rw [start] at ports
      exact ports

namespace Undergoes

theorem ports_eq (h : Undergoes switches p history q) (start : p.ports = board.ports) :
    q.ports = (history.foldl (Board.undergo switches) board).ports := by
  induction h generalizing board with
  | done => exact start
  | next suffered _ ih => exact ih (suffered.ports_eq start)
  | host ports _ ih => exact ih (ports.trans start)

/-- At each moment of a history the board is what has happened before. -/
theorem exists_moment (h : Undergoes switches p (earlier ++ happening :: later) final)
    (start : p.ports = board.ports) :
    ∃ q r, q.ports = (earlier.foldl (Board.undergo switches) board).ports ∧
      Suffers switches q happening r := by
  induction earlier generalizing p board with
  | nil =>
      obtain ⟨q, r, same, suffered, -⟩ := h.exists_next
      exact ⟨q, r, same.trans start, suffered⟩
  | cons first earlier ih =>
      obtain ⟨q, r, same, suffered, rest⟩ := h.exists_next
      exact ih rest (suffered.ports_eq (same.trans start))

end Undergoes

end

namespace Machine

variable {configuration : Configuration} {journal : Journal} {calls : List Call}
  {earlier later : List Happening}

theorem ports_serveAll (configuration : Configuration) (journal : Journal) (calls : List Call) :
    ((new configuration journal).serveAll calls).cpu.processor.ports =
      (Board.after configuration.switches ((new configuration journal).history calls)).ports :=
  ((new configuration journal).undergoes_history calls).ports_eq rfl

/-- A step in a history succeeds on the board that is left by what happened before. -/
theorem exists_step_of_history {before : Processor Board} {cost : Nat}
    (split : (new configuration journal).history calls =
      earlier ++ .event (.step before cost) :: later) :
    before.ports = (Board.after configuration.switches earlier).ports ∧
      ∃ q, before.step = (.ok cost, q) := by
  have lived := (new configuration journal).undergoes_history calls
  rw [split] at lived
  obtain ⟨q, r, ports, suffered⟩ := lived.exists_moment rfl
  cases suffered with
  | step stepped => exact ⟨ports, r, stepped⟩

theorem step_error_of_history {before : Processor Board} {cause : Fault}
    (split : (new configuration journal).history calls =
      earlier ++ .event (.fault before cause) :: later) :
    before.step = (.error cause, before) := by
  have lived := (new configuration journal).undergoes_history calls
  rw [split] at lived
  obtain ⟨q, r, -, suffered⟩ := lived.exists_moment rfl
  cases suffered with
  | fault failed =>
      obtain rfl := Processor.eq_of_step_error failed
      exact failed

end Machine

/-! ## Since the last reset -/

namespace Happening

def isReset : Happening → Bool
  | .reset => true
  | _ => false

/-- The port and the byte of a step that sends one. A step that fails sends nothing. -/
def sent? : Happening → Option (UInt8 × UInt8)
  | .event (.step before _) => Invaders.sent? before
  | _ => none

def sentTo? (port : UInt8) (happening : Happening) : Option UInt8 :=
  happening.sent?.bind fun (target, value) => if target = port then some value else none

def pressed? (control : Control) : Happening → Option Bool
  | .press other pressed => if other = control then some pressed else none
  | _ => none

end Happening

section

variable {α : Type} (read : Happening → Option α) (history : List Happening)

/-- What can be read off a history since its last reset, in order. -/
def sinceReset : List α :=
  (history.rtakeWhile fun happening => !happening.isReset).filterMap read

@[simp] theorem sinceReset_nil : sinceReset read [] = [] := rfl

@[simp] theorem sinceReset_reset : sinceReset read (history ++ [.reset]) = [] := by
  rw [sinceReset, List.rtakeWhile_concat_neg _ _ _ (by simp [Happening.isReset])]
  rfl

theorem sinceReset_concat {happening : Happening} (h : happening.isReset = false) :
    sinceReset read (history ++ [happening]) =
      sinceReset read history ++ (read happening).toList := by
  rw [sinceReset, List.rtakeWhile_concat_pos _ _ _ (by simp [h]), List.filterMap_append]
  rfl

end

/-- The bytes sent to an output port since the last reset. -/
def sent (port : UInt8) (history : List Happening) : List UInt8 :=
  sinceReset (Happening.sentTo? port) history

/-- What has been done to a control since the last reset. -/
def presses (control : Control) (history : List Happening) : List Bool :=
  sinceReset (Happening.pressed? control) history

end Intel8080.Invaders
