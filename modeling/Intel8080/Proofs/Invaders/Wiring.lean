import Intel8080.Proofs.Execution.FaultOrder
import Intel8080.Proofs.Interrupts.Acceptance
import Intel8080.Proofs.Invaders.Events

/-!
# A processor on its board

The board attaches its own handlers to both directions of the ports, and no step takes them
away. On them, an IN reads the board and changes nothing there, and an OUT is the only
instruction that writes to it. If memory covers the address space as well, a step can only
fail on an opcode without a meaning.
-/

namespace Intel8080

namespace Invaders

/-- The ports lead to the board through its own handlers. -/
structure Wired (p : Processor Board) : Prop where
  input : p.ports.input = some Board.input
  output : p.ports.output = some Board.output

/-- The port and the byte of the OUT that the next step executes, if it executes one. -/
def sent? (p : Processor Board) : Option (UInt8 × UInt8) :=
  if p.prepared.operation? = some .output then
    some (p.prepared.core.registers.z, p.prepared.core.registers.a)
  else none

/-- The port of the IN that the next step executes, if it executes one. -/
def asked? (p : Processor Board) : Option UInt8 :=
  if p.prepared.operation? = some .input then some p.prepared.core.registers.z else none

theorem sent?_of_asked? {p : Processor Board} {port : UInt8} (h : asked? p = some port) :
    sent? p = none := by
  unfold asked? at h
  split at h
  case isTrue reads => rw [sent?, if_neg (by simp [reads])]
  case isFalse => cases h

def Board.receive (b : Board) : Option (UInt8 × UInt8) → Board
  | some (port, value) => b.output port value
  | none => b

theorem Board.input_snd (port : UInt8) (b : Board) : (b.input port).2 = b := by
  unfold input
  split <;> rfl

namespace Wired

variable {p q : Processor Board} {board : Board} {cost : Nat}

theorem of_ports (h : p.ports = board.ports) : Wired p where
  input := congrArg Ports.input h
  output := congrArg Ports.output h

theorem of_handlers (h : Wired p)
    (same : q.ports.input = p.ports.input ∧ q.ports.output = p.ports.output) : Wired q where
  input := same.1.trans h.input
  output := same.2.trans h.output

theorem ports_eq (h : Wired p) : p.ports = p.ports.device.ports := by
  obtain ⟨core, memory, ⟨device, input, output⟩⟩ := p
  cases h.input
  cases h.output
  rfl

theorem prepared (h : Wired p) : Wired p.prepared :=
  h.of_handlers (by simp)

theorem missingHandler?_eq_none (h : Wired p) (operation : Operation) :
    operation.missingHandler? p = none := by
  unfold Operation.missingHandler?
  split
  · rw [h.input]
    rfl
  · rw [h.output]
    rfl
  · rfl

/-! ## What a step does to the board -/

theorem step (h : Wired p) (stepped : p.step = (.ok cost, q)) : Wired q := by
  obtain ⟨operation, -, -, rfl⟩ := Processor.exists_operation_of_step stepped
  exact h.prepared.of_handlers (operation.frame_meaning p.prepared).handlers

theorem device_of_step (h : Wired p) (stepped : p.step = (.ok cost, q)) :
    q.ports.device = p.ports.device.receive (sent? p) := by
  obtain ⟨operation, line, -, rfl⟩ := Processor.exists_operation_of_step stepped
  by_cases writes : operation = .output
  · subst writes
    rw [sent?, if_pos line]
    simp only [Operation.meaning, Processor.prepared_ports, h.output]
    rfl
  · have silent : sent? p = none := by
      rw [sent?, if_neg (by simpa [line] using writes)]
    rw [silent]
    by_cases reads : operation = .input
    · subst reads
      simp only [Operation.meaning, Processor.prepared_ports, h.input, Board.input_snd]
      rfl
    · rw [(operation.frame_meaning p.prepared).ports reads writes, Processor.prepared_ports]
      rfl

theorem ports_of_step (h : p.ports = board.ports) (stepped : p.step = (.ok cost, q)) :
    q.ports = (board.receive (sent? p)).ports := by
  have wired := of_ports h
  have device : p.ports.device = board := congrArg Ports.device h
  rw [(wired.step stepped).ports_eq, wired.device_of_step stepped, device]

theorem a_of_step (h : p.ports = board.ports) (stepped : p.step = (.ok cost, q)) {port : UInt8}
    (asking : asked? p = some port) : q.core.registers.a = (board.input port).1 := by
  obtain ⟨operation, line, -, rfl⟩ := Processor.exists_operation_of_step stepped
  unfold asked? at asking
  split at asking
  case isTrue reads =>
    cases line.symm.trans reads
    cases asking
    have device : p.ports.device = board := congrArg Ports.device h
    simp only [Operation.meaning, Processor.prepared_ports, (of_ports h).input, device]
    rfl
  case isFalse => cases asking

end Wired

/-! ## A board with all of its memory -/

/-- The processor of a board, with memory at every address. -/
structure Assembled (p : Processor Board) : Prop where
  wired : Wired p
  covering : Memory.addressSpace ≤ p.memory.capacity

def RefusesOpcode (p : Processor Board) (cause : Fault) : Prop :=
  ∃ opcode, Opcode.Refused opcode ∧ cause = .unimplementedOpcode opcode p.core.registers.pc

namespace Assembled

variable {p q : Processor Board} {cost : Nat} {cause : Fault}

theorem step_ok (h : Assembled p) (stepped : p.step = (.ok cost, q)) : Assembled q where
  wired := h.wired.step stepped
  covering := by
    obtain ⟨operation, -, -, rfl⟩ := Processor.exists_operation_of_step stepped
    rw [(operation.frame_meaning p.prepared).capacity, Processor.prepared_memory]
    exact h.covering

theorem step_error (h : Assembled p) (failed : p.step = (.error cause, q)) :
    q = p ∧ RefusesOpcode p cause := by
  by_cases refused : Opcode.Refused p.prepared.core.opcode
  · rw [Processor.step_of_refused h.covering refused] at failed
    cases failed
    exact ⟨rfl, _, refused, rfl⟩
  · obtain ⟨operation, line⟩ := Processor.exists_operation refused
    rw [Processor.step_of_covering h.covering refused line
      (h.wired.prepared.missingHandler?_eq_none operation)] at failed
    cases failed

theorem of_new (configuration : Configuration) (journal : Journal) :
    Assembled (Machine.new configuration journal).cpu.processor where
  wired := .of_ports rfl
  covering := Nat.le_of_eq (Memory.capacity_zeroed _).symm

theorem requestInterrupt (h : Assembled p) (vector : UInt8) :
    Assembled (p.requestInterrupt vector) :=
  ⟨⟨h.wired.input, h.wired.output⟩, h.covering⟩

/-! ### Frames -/

theorem approaches {target clock last : Nat} {events : List (Event Board)} {fault? : Option Fault}
    (h : Assembled p) (run : Approaches target clock p events fault? last q) :
    Assembled q ∧ ∀ cause, fault? = some cause → RefusesOpcode q cause := by
  induction run with
  | reached _ => exact ⟨h, by simp⟩
  | step _ stepped _ ih => exact ih (h.step_ok stepped)
  | fault _ failed =>
      obtain ⟨rfl, refused⟩ := h.step_error failed
      refine ⟨h, ?_⟩
      intro cause same
      cases same
      exact refused

theorem frameCall {length clock last : Nat} {events : List (Event Board)}
    {outcome : Except Fault Nat} (h : Assembled p)
    (call : FrameCall length clock p events outcome last q) :
    Assembled q ∧ ∀ cause, outcome = .error cause → RefusesOpcode q cause := by
  cases call with
  | early first =>
      obtain ⟨after, refused⟩ := h.approaches first
      refine ⟨after, ?_⟩
      intro cause same
      cases same
      exact refused _ rfl
  | late first second =>
      obtain ⟨half, -⟩ := h.approaches first
      obtain ⟨after, refused⟩ := (half.requestInterrupt midScreenVector).approaches second
      refine ⟨after, ?_⟩
      intro cause same
      cases same
      exact refused _ rfl
  | complete first second =>
      obtain ⟨half, -⟩ := h.approaches first
      obtain ⟨after, -⟩ := (half.requestInterrupt midScreenVector).approaches second
      exact ⟨after.requestInterrupt endOfScreenVector, by simp⟩

theorem stepFrame {m : Machine} (h : Assembled m.cpu.processor) :
    Assembled m.stepFrame.2.cpu.processor ∧
      ∀ cause, m.stepFrame.1 = .error cause → RefusesOpcode m.stepFrame.2.cpu.processor cause :=
  h.frameCall m.tracedFrame_spec.2.1

end Assembled

end Invaders

end Intel8080
