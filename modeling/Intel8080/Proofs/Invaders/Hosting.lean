import Intel8080.Proofs.Invaders.Events
import Intel8080.Proofs.Memory.Loading

/-!
# What a host does with a machine

Between frames a host presses controls, loads a program, steps the processor itself or
changes it at will. None of this touches the counter of the frame, which only frames move.
A history is a list of such actions; what its frames do is collected in order.
-/

namespace Intel8080.Invaders

/-- An action of the host. The processor is open to it, and `adjust` stands for whatever
it does there: to registers, to memory, to the slot of the interrupt. -/
inductive HostAction where
  | frame
  | press (control : Control) (pressed : Bool)
  | loadRom (rom : ByteArray)
  | step
  | adjust (change : Monitor Board → Monitor Board)

def HostAction.patch (address : UInt16) (value : UInt8) : HostAction :=
  .adjust fun cpu => cpu.modify fun p => { p with memory := p.memory.store address value }

def HostAction.arm : HostAction :=
  .adjust fun cpu => cpu.modify fun p =>
    { p with core := { p.core with interruptsEnabled := true } }

namespace Machine

variable {α : Type}

def act (m : Machine) : HostAction → Machine
  | .frame => m.stepFrame.2
  | .press control pressed => m.setControl control pressed
  | .loadRom rom =>
      match m.loadRom rom with
      | .ok loaded => loaded
      | .error _ => m
  | .step => { m with cpu := m.cpu.step.2 }
  | .adjust change => { m with cpu := change m.cpu }

def play (m : Machine) (actions : List HostAction) : Machine :=
  actions.foldl act m

theorem play_nil (m : Machine) : m.play [] = m := rfl

def collect (record : Machine → HostAction → List α) : Machine → List HostAction → List α
  | _, [] => []
  | m, action :: later => record m action ++ collect record (m.act action) later

def framed (m : Machine) : HostAction → List (Event Board)
  | .frame => m.frameEvents
  | _ => []

def reported (m : Machine) : HostAction → List Nat
  | .frame =>
      match m.stepFrame.1 with
      | .ok spent => [spent]
      | .error _ => []
  | _ => []

/-- What happens in the frames of a history. -/
def frameHistory (m : Machine) (actions : List HostAction) : List (Event Board) :=
  m.collect framed actions

/-- The number of frames of a history that complete. -/
def completed (m : Machine) (actions : List HostAction) : Nat :=
  (m.collect reported actions).length

/-- A machine that has just been made or reset. -/
inductive Started : Machine → Prop where
  | new (configuration : Configuration) (journal : Journal) : Started (new configuration journal)
  | reset (m : Machine) : Started m.reset

theorem Started.frameCycles_eq_zero {m : Machine} (h : Started m) : m.frameCycles = 0 := by
  cases h with
  | new configuration journal => rfl
  | reset earlier => rfl

theorem collect_append (record : Machine → HostAction → List α) (m : Machine)
    (earlier later : List HostAction) :
    m.collect record (earlier ++ later) =
      m.collect record earlier ++ (m.play earlier).collect record later := by
  induction earlier generalizing m with
  | nil => rfl
  | cons action rest ih =>
      have tail := ih (m.act action)
      simp only [List.cons_append, collect, tail, List.append_assoc]
      rfl

/-! ## What actions leave alone -/

theorem loadRom_of_load {m : Machine} {rom : ByteArray} {processor : Processor Board}
    (h : m.cpu.processor.load rom 0 = .ok processor) :
    m.loadRom rom = .ok { m with
      cpu := { m.cpu with
        processor := processor.jump 0
        journal := m.cpu.journal.note (.romLoaded rom.size) } } := by
  simp only [loadRom, h, bind, Except.bind]
  rfl

theorem loadRom_of_refusal {m : Machine} {rom : ByteArray} {access : OutOfBounds}
    (h : m.cpu.processor.load rom 0 = .error access) : m.loadRom rom = .error access := by
  simp only [loadRom, h, bind, Except.bind]

theorem loadRom_of_gt {m : Machine} {rom : ByteArray}
    (h : m.cpu.processor.memory.capacity < rom.size) :
    m.loadRom rom = .error ⟨0, rom.size, m.cpu.processor.memory.capacity⟩ := by
  have refused : m.cpu.processor.memory.load rom 0 =
      .error ⟨0, rom.size, m.cpu.processor.memory.capacity⟩ := Memory.load_of_gt (by omega)
  exact loadRom_of_refusal (Processor.load_of_error refused)

theorem act_loadRom_cases (m : Machine) (rom : ByteArray) :
    m.act (.loadRom rom) = m ∨
      ∃ processor journal, m.cpu.processor.load rom 0 = .ok processor ∧
        m.act (.loadRom rom) =
          { m with cpu := { m.cpu with processor := processor.jump 0, journal } } := by
  cases loaded : m.cpu.processor.load rom 0 with
  | error access =>
      refine .inl ?_
      simp only [act, loadRom_of_refusal loaded]
  | ok processor =>
      refine .inr ⟨processor, m.cpu.journal.note (.romLoaded rom.size), rfl, ?_⟩
      simp only [act, loadRom_of_load loaded]

theorem act_configuration (m : Machine) (action : HostAction) :
    (m.act action).configuration = m.configuration := by
  cases action with
  | frame => exact m.tracedFrame_spec.2.2
  | loadRom rom =>
      rcases m.act_loadRom_cases rom with same | ⟨_, _, -, same⟩ <;> rw [same]
  | _ => rfl

theorem play_configuration (m : Machine) (actions : List HostAction) :
    (m.play actions).configuration = m.configuration := by
  induction actions generalizing m with
  | nil => rfl
  | cons action rest ih => exact (ih (m.act action)).trans (m.act_configuration action)

theorem act_frameCycles (m : Machine) {action : HostAction} (h : action ≠ .frame) :
    (m.act action).frameCycles = m.frameCycles := by
  cases action with
  | frame => exact absurd rfl h
  | loadRom rom =>
      rcases m.act_loadRom_cases rom with same | ⟨_, _, -, same⟩ <;> rw [same]
  | _ => rfl

theorem framed_of_ne_frame (m : Machine) {action : HostAction} (h : action ≠ .frame) :
    m.framed action = [] := by
  cases action with
  | frame => exact absurd rfl h
  | _ => rfl

theorem reported_of_ne_frame (m : Machine) {action : HostAction} (h : action ≠ .frame) :
    m.reported action = [] := by
  cases action with
  | frame => exact absurd rfl h
  | _ => rfl

end Machine

end Intel8080.Invaders
