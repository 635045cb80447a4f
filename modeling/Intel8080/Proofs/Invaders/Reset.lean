import Intel8080.Proofs.Invaders.InputPorts

/-!
# Reset

A reset leaves of a machine what is in its memory and nothing else. The state is in three
places, the processor with its board, the counter of the frame and the configuration, and the
answers of every later call are functions of these three; what stands in the journal has no
influence on them. So a machine that has been reset cannot be told from a new one.
-/

namespace Intel8080.Invaders

/-! ## What a caller sees -/

inductive Answer where
  | spent (outcome : Except Fault Nat)
  | loaded (outcome : Except OutOfBounds Unit)
  | nothing

/-- A host that changes the processor does not read the journal for it. -/
def Call.IgnoresJournal : Call → Prop
  | .act (.adjust change) _ => ∀ cpu other : Monitor Board, cpu.processor = other.processor →
      (change cpu).processor = (change other).processor
  | _ => True

namespace Machine

def answer (m : Machine) : Call → Answer
  | .act .frame _ => .spent m.stepFrame.1
  | .act .step _ => .spent m.cpu.step.1
  | .act (.loadRom rom) _ => .loaded ((m.loadRom rom).map fun _ => ())
  | .act (.press _ _) _ => .nothing
  | .act (.adjust _) _ => .nothing
  | .reset => .nothing

/-- The answers to calls that are made one after the other. -/
def answers : Machine → List Call → List Answer
  | _, [] => []
  | m, call :: later => m.answer call :: (m.serve call).answers later

def withMemory (m : Machine) (memory : Memory) : Machine :=
  { m with cpu := m.cpu.modify fun p => { p with memory } }

/-- Machines that differ in their journals at most. -/
structure SameState (m n : Machine) : Prop where
  configuration : m.configuration = n.configuration
  processor : m.cpu.processor = n.cpu.processor
  frameCycles : m.frameCycles = n.frameCycles

/-- A machine after calls of any kind since it was made. -/
def Reachable (m : Machine) : Prop :=
  ∃ configuration journal calls, m = (new configuration journal).serveAll calls

/-! ## The journal has no influence -/

namespace SameState

variable {m n : Machine}

theorem exists_eq (h : SameState m n) :
    ∃ journal remark, n = { m with cpu := { m.cpu with journal, remark } } := by
  obtain ⟨configuration, ⟨processor, journal, remark⟩, counter⟩ := m
  obtain ⟨_, ⟨_, journal', remark'⟩, _⟩ := n
  cases h.configuration
  cases h.processor
  cases h.frameCycles
  exact ⟨journal', remark', rfl⟩

theorem stepFrame (h : SameState m n) :
    m.stepFrame.1 = n.stepFrame.1 ∧ SameState m.stepFrame.2 n.stepFrame.2 := by
  obtain ⟨-, call, configured⟩ := m.tracedFrame_spec
  obtain ⟨-, call', configured'⟩ := n.tracedFrame_spec
  rw [← h.configuration, ← h.frameCycles, ← h.processor] at call'
  obtain ⟨-, outcome, counter, processor⟩ := call.deterministic call'
  refine ⟨outcome, ?_, processor, counter⟩
  rw [configured, configured', h.configuration]

theorem loadRom (h : SameState m n) (rom : ByteArray) :
    (m.loadRom rom).map (fun _ => ()) = (n.loadRom rom).map (fun _ => ()) ∧
      SameState (m.act (.loadRom rom)) (n.act (.loadRom rom)) := by
  have same : n.cpu.processor.load rom 0 = m.cpu.processor.load rom 0 := by rw [h.processor]
  cases loaded : m.cpu.processor.load rom 0 with
  | error access =>
      rw [loaded] at same
      refine ⟨by rw [loadRom_of_refusal loaded, loadRom_of_refusal same], ?_⟩
      simp only [act, loadRom_of_refusal loaded, loadRom_of_refusal same]
      exact h
  | ok processor =>
      rw [loaded] at same
      refine ⟨by rw [loadRom_of_load loaded, loadRom_of_load same]; rfl, ?_⟩
      simp only [act, loadRom_of_load loaded, loadRom_of_load same]
      exact ⟨h.configuration, rfl, h.frameCycles⟩

theorem serve (h : SameState m n) {call : Call} (ignores : call.IgnoresJournal) :
    m.answer call = n.answer call ∧ SameState (m.serve call) (n.serve call) := by
  cases call with
  | reset =>
      obtain ⟨journal, remark, rfl⟩ := h.exists_eq
      exact ⟨rfl, rfl, rfl, rfl⟩
  | act action keeps =>
      cases action with
      | frame => exact ⟨congrArg Answer.spent h.stepFrame.1, h.stepFrame.2⟩
      | loadRom rom => exact ⟨congrArg Answer.loaded (h.loadRom rom).1, (h.loadRom rom).2⟩
      | adjust change =>
          exact ⟨rfl, h.configuration, ignores m.cpu n.cpu h.processor, h.frameCycles⟩
      | step | press control pressed =>
          obtain ⟨journal, remark, rfl⟩ := h.exists_eq
          exact ⟨rfl, rfl, rfl, rfl⟩

theorem serveAll (h : SameState m n) {calls : List Call}
    (ignoring : ∀ call ∈ calls, call.IgnoresJournal) :
    m.answers calls = n.answers calls ∧ SameState (m.serveAll calls) (n.serveAll calls) := by
  induction calls generalizing m n with
  | nil => exact ⟨rfl, h⟩
  | cons call later ih =>
      obtain ⟨first, next⟩ := h.serve (ignoring call List.mem_cons_self)
      obtain ⟨rest, last⟩ := ih next fun call among => ignoring call (List.mem_cons_of_mem _ among)
      exact ⟨by rw [answers, answers, first, rest], last⟩

end SameState

/-! ## What a reset leaves -/

/-- On its own handlers a board that is renewed is a new board. -/
theorem sameState_reset {m : Machine} (wired : Wired m.cpu.processor) (journal : Journal) :
    SameState m.reset ((new m.configuration journal).withMemory m.cpu.processor.memory) where
  configuration := rfl
  processor := by
    have ports : { m.cpu.processor.ports with device := Board.new m.configuration.switches } =
        (Board.new m.configuration.switches).ports := by
      rw [wired.ports_eq]
      rfl
    exact congrArg (Processor.mk .cleared m.cpu.processor.memory) ports
  frameCycles := rfl

theorem sameState_reset_reset (m : Machine) : SameState m.reset.reset m.reset :=
  ⟨rfl, rfl, rfl⟩

theorem Reachable.wired {m : Machine} (h : Reachable m) : Wired m.cpu.processor := by
  obtain ⟨configuration, journal, calls, rfl⟩ := h
  exact .of_ports (ports_serveAll configuration journal calls)

/-- Whatever has happened to a machine, a reset puts it into the state of a new machine of
its configuration that has its memory. The two answer all later calls alike and stay in the
same state, and another reset changes nothing. -/
theorem reset_forgets_all_but_memory {m : Machine} (reachable : Reachable m) (journal : Journal)
    {later : List Call} (ignoring : ∀ call ∈ later, call.IgnoresJournal) :
    SameState m.reset ((new m.configuration journal).withMemory m.cpu.processor.memory) ∧
      m.reset.answers later =
        ((new m.configuration journal).withMemory m.cpu.processor.memory).answers later ∧
      SameState (m.reset.serveAll later)
        (((new m.configuration journal).withMemory m.cpu.processor.memory).serveAll later) ∧
      SameState m.reset.reset m.reset := by
  have renewed := sameState_reset reachable.wired journal
  obtain ⟨answers, after⟩ := renewed.serveAll ignoring
  exact ⟨renewed, answers, after, m.sameState_reset_reset⟩

/-- A tilted machine that has read its first controls into A. -/
def readingTilted : Machine :=
  (new generous ⟨none, #[]⟩).serveAll (tilting ++ [.act .step trivial])

/-- Its program reads both controls again and then runs out of memory. -/
theorem reset_forgets_all_but_memory_readingTilted :
    readingTilted.cpu.processor.core.registers.a = 0x28 ∧
      Reachable readingTilted ∧
      SameState readingTilted.reset
        ((new generous ⟨none, #[]⟩).withMemory ⟨⟨#[0xdb, 0x01, 0xdb, 0x02]⟩⟩) ∧
      readingTilted.reset.answers (List.replicate 3 (.act .step trivial)) =
        [.spent (.ok 10), .spent (.ok 10), .spent (.error (.outOfBounds ⟨4, 1, 4⟩))] := by
  have reachable : Reachable readingTilted := ⟨_, _, _, rfl⟩
  have ignoring : ∀ call ∈ List.replicate 3 (Call.act .step trivial), call.IgnoresJournal := by
    intro call among
    rw [List.eq_of_mem_replicate among]
    trivial
  obtain ⟨renewed, answers, -⟩ :=
    reset_forgets_all_but_memory reachable ⟨none, #[]⟩ ignoring
  exact ⟨rfl, reachable, renewed, answers.trans rfl⟩

end Machine

end Intel8080.Invaders
