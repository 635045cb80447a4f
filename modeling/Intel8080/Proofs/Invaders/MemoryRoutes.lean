import Intel8080.Proofs.Invaders.Hosting
import Intel8080.Proofs.Memory.ByteMap

/-!
# The ways to the memory of a machine

The memory of a machine is accessed through its processor, and the program that the machine
starts with is loaded at address zero. Along either way memory stays the bounded map of bytes
that it is alone, and a program that does not fit leaves the machine as it was.
-/

namespace Intel8080.Invaders

/-- A way to the memory of a machine: its processor, or the program that it starts with. -/
inductive Route where
  | processor (access : MemoryAccess)
  | rom (data : ByteArray)

def Route.access : Route → MemoryAccess
  | .processor access => access
  | .rom data => .load data 0

namespace Machine

def access (m : Machine) : Route → Except OutOfBounds MemoryReply × Machine
  | .processor access =>
      ((m.cpu.processor.access access).1,
        { m with cpu := { m.cpu with processor := (m.cpu.processor.access access).2 } })
  | .rom data =>
      match m.loadRom data with
      | .ok loaded => (.ok .done, loaded)
      | .error refusal => (.error refusal, m)

def accessAll (m : Machine) (routes : List Route) : Machine :=
  routes.foldl (fun m route => (m.access route).2) m

variable {m : Machine}

theorem loadRom_of_le {rom : ByteArray} (h : rom.size ≤ m.cpu.processor.memory.capacity) :
    ∃ memory, m.cpu.processor.memory.perform (.load rom 0) = (.ok .done, memory) ∧
      m.loadRom rom = .ok { m with
        cpu := { m.cpu with
          processor := { m.cpu.processor with memory }.jump 0
          journal := m.cpu.journal.note (.romLoaded rom.size) } } := by
  obtain ⟨memory, loaded⟩ : ∃ memory, m.cpu.processor.memory.load rom 0 = .ok memory :=
    ⟨_, Memory.load_of_le (by omega)⟩
  refine ⟨memory, ?_, loadRom_of_load (Processor.load_of_ok loaded)⟩
  rw [Memory.perform, loaded]

/-- Every route does to memory what it does to a memory alone. -/
theorem access_eq (m : Machine) (route : Route) :
    (m.access route).1 = (m.cpu.processor.memory.perform route.access).1 ∧
      (m.access route).2.cpu.processor.memory =
        (m.cpu.processor.memory.perform route.access).2 := by
  cases route with
  | processor access =>
      rw [Machine.access, Processor.access_eq]
      exact ⟨rfl, rfl⟩
  | rom data =>
      rw [Machine.access, Route.access, Memory.perform]
      cases loaded : m.cpu.processor.memory.load data 0 with
      | ok memory =>
          rw [loadRom_of_load (Processor.load_of_ok loaded)]
          exact ⟨rfl, rfl⟩
      | error refusal =>
          rw [loadRom_of_refusal (Processor.load_of_error loaded)]
          exact ⟨rfl, rfl⟩

theorem memory_accessAll (m : Machine) (routes : List Route) :
    (m.accessAll routes).cpu.processor.memory =
      m.cpu.processor.memory.performAll (routes.map Route.access) := by
  induction routes generalizing m with
  | nil => rfl
  | cons route later ih =>
      have after := ih (m.access route).2
      rw [(m.access_eq route).2] at after
      exact after

/-- Memory is a bounded map of bytes, alone, in a processor and in a machine. -/
theorem memory_is_byte_map {σ : Type} (capacity : Nat) (accesses : List MemoryAccess)
    (p : Processor σ) (configuration : Configuration) (journal : Journal)
    (routes : List Route) (m : Machine) (rom : ByteArray) :
    ((Memory.zeroed capacity).performAll accesses).IsByteMap capacity
        (lastStored capacity accesses) ∧
      (capacity < UInt64.size → ∀ address length : UInt64,
        ((Memory.zeroed capacity).performAll accesses).checkWords address length =
          ((Memory.zeroed capacity).performAll accesses).checkRange address.toNat
            length.toNat) ∧
      ((∀ access, p.access access =
          ((p.memory.perform access).1, { p with memory := (p.memory.perform access).2 })) ∧
        p.accessAll accesses = { p with memory := p.memory.performAll accesses }) ∧
      ((Machine.new configuration journal).accessAll routes).cpu.processor.memory.IsByteMap
        Memory.addressSpace (lastStored Memory.addressSpace (routes.map Route.access)) ∧
      (rom.size ≤ m.cpu.processor.memory.capacity →
        ∃ memory, m.cpu.processor.memory.perform (.load rom 0) = (.ok .done, memory) ∧
          m.loadRom rom = .ok { m with
            cpu := { m.cpu with
              processor := { m.cpu.processor with memory }.jump 0
              journal := m.cpu.journal.note (.romLoaded rom.size) } }) ∧
      (m.cpu.processor.memory.capacity < rom.size →
        m.loadRom rom = .error ⟨0, rom.size, m.cpu.processor.memory.capacity⟩ ∧
          m.act (.loadRom rom) = m) := by
  have alone := Memory.performAll_holds capacity accesses
  refine ⟨alone.isByteMap, fun small => Memory.checkWords_eq (alone.capacity_eq.symm ▸ small),
    ⟨p.access_eq, p.accessAll_eq accesses⟩, ?_, loadRom_of_le, fun beyond => ?_⟩
  · rw [memory_accessAll]
    exact (Memory.performAll_holds Memory.addressSpace (routes.map Route.access)).isByteMap
  · have refused := loadRom_of_gt beyond
    exact ⟨refused, by simp only [act, refused]⟩

def overlapping : List MemoryAccess :=
  [.load ⟨#[1, 2, 3]⟩ 0, .write 1 9, .load ⟨#[7, 7]⟩ 3, .load ⟨#[]⟩ 4, .write 4 5, .slice 3 2]

theorem memory_is_byte_map_overlapping :
    (((Memory.zeroed 4).performAll overlapping).perform (.slice 0 4)).1 =
        .ok (.bytes ⟨#[1, 9, 3, 0]⟩) ∧
      ((Memory.zeroed 4).performAll overlapping).checkWords 0xFFFFFFFFFFFFFFFF 1 =
        .error ⟨0xFFFFFFFFFFFFFFFF, 1, 4⟩ := by
  obtain ⟨bytes, words, -⟩ :=
    memory_is_byte_map 4 overlapping (.new (.zeroed 4) ⟨(), none, none⟩) .standard (.opened none)
      [] (.new .standard (.opened none)) ⟨#[]⟩
  constructor
  · obtain ⟨next, same, -⟩ := bytes.succeeds (.slice 0 4) (by decide)
    rw [same]
    rfl
  · rw [words (by decide)]
    rfl

end Machine

end Intel8080.Invaders
