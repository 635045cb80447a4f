import Intel8080.Proofs.Assembly.Reading
import Intel8080.Proofs.Devices.Traffic
import Intel8080.Proofs.Execution.FaultOrder

/-!
# What a fault says about the instruction

A step that fails leaves its instruction at PC, to be read again. If the instruction was fetched
as a whole, disassembling it succeeds, and the fault is about its opcode, its port, or data that
lie outside memory. If it was not, disassembling finds the same byte outside memory that fetching
has found, and the fault is about that byte of the instruction.
-/

namespace Intel8080

namespace PortDirection

def opcode : PortDirection → UInt8
  | .read => Opcode.input
  | .write => Opcode.output

def operation : PortDirection → Operation
  | .read => .input
  | .write => .output

theorem decode_opcode (direction : PortDirection) :
    Operation.decode direction.opcode = some direction.operation := by
  cases direction <;> rfl

theorem length_opcode (direction : PortDirection) :
    (Opcode.entry direction.opcode).length = 2 := by
  cases direction <;> rfl

theorem opcode_of_decode {direction : PortDirection} {opcode : UInt8}
    (decoded : Operation.decode opcode = some direction.operation) :
    opcode = direction.opcode := by
  cases direction with
  | read => exact (Operation.decode_eq_port_iff opcode).1.mp decoded
  | write => exact (Operation.decode_eq_port_iff opcode).2.mp decoded

end PortDirection

namespace Processor

variable {σ : Type} {p : Processor σ} {fault : Fault}

/-! ## Faults of an opcode -/

def Strays (p : Processor σ) (address : UInt16) (fault : Fault) : Prop :=
  p.memory.capacity ≤ address.toNat ∧
    fault = .outOfBounds ⟨address.toNat, 1, p.memory.capacity⟩

theorem exists_strays_of_accessFault? {addresses : List UInt16}
    (h : p.accessFault? addresses = some fault) :
    ∃ address ∈ addresses, p.Strays address fault := by
  obtain ⟨access, first, rfl⟩ := Option.map_eq_some_iff.mp h
  obtain ⟨address, listed, outside, rfl⟩ := Memory.exists_of_firstOutside? first
  exact ⟨address, listed, outside, rfl⟩

theorem exists_direction_of_missingHandler? {operation : Operation}
    (h : operation.missingHandler? p = some fault) :
    ∃ direction : PortDirection, operation = direction.operation ∧
      fault = .missingPortHandler direction p.core.registers.z := by
  unfold Operation.missingHandler? at h
  split at h
  · split at h
    · exact ⟨.read, rfl, (Option.some.inj h).symm⟩
    · cases h
  · split at h
    · exact ⟨.write, rfl, (Option.some.inj h).symm⟩
    · cases h
  · cases h

theorem opcodeFault?_cases (h : p.opcodeFault? = some fault) :
    fault = .unimplementedOpcode p.core.opcode p.core.opcodeAddress ∨
      (∃ direction : PortDirection, p.core.opcode = direction.opcode ∧
        fault = .missingPortHandler direction p.core.registers.z) ∨
      ∃ address, p.Strays address fault := by
  by_cases refused : Opcode.Refused p.core.opcode
  · rw [opcodeFault?, if_pos refused] at h
    exact .inl (Option.some.inj h).symm
  · obtain ⟨operation, line⟩ := exists_operation refused
    have decoded : Operation.decode p.core.opcode = some operation :=
      (Operation.decode_eq_operation? refused).trans line
    rw [opcodeFault?, if_neg refused, line, Option.bind_some, Operation.fault?] at h
    cases missing : operation.missingHandler? p with
    | some first =>
        rw [missing, Option.some_or] at h
        cases h
        obtain ⟨direction, rfl, rfl⟩ := exists_direction_of_missingHandler? missing
        exact .inr (.inl ⟨direction, PortDirection.opcode_of_decode decoded, rfl⟩)
    | none =>
        rw [missing, Option.none_or] at h
        obtain ⟨address, -, strays⟩ := exists_strays_of_accessFault? h
        exact .inr (.inr ⟨address, strays⟩)

/-! ## Faults of a fetched instruction -/

theorem mem_instructionAddresses_iff {address : UInt16} :
    address ∈ p.instructionAddresses ↔
      ∃ i < p.instructionLength, address = p.core.registers.pc + UInt16.ofNat i := by
  have counted : p.instructionAddresses =
      (List.range p.instructionLength).map fun i => p.core.registers.pc + UInt16.ofNat i := by
    unfold instructionAddresses
    rcases p.instructionLength_cases with length | length | length <;>
      simp only [length, List.range_succ, List.range_zero, List.nil_append, List.map_append,
        List.map_singleton, add_ofNat_zero] <;> rfl
  rw [counted, List.mem_map]
  simp only [List.mem_range, eq_comm]

theorem stepFault?_cases (fetching : p.core.acceptable = none) (h : p.stepFault? = some fault) :
    (∃ access, p.memory.firstOutside? p.instructionAddresses = some access ∧
        fault = .outOfBounds access) ∨
      p.Inside p.instructionAddresses ∧ p.fetched.opcodeFault? = some fault := by
  rw [stepFault?, preparationFault?, fetching, prepared_of_fetching fetching, accessFault?] at h
  cases first : p.memory.firstOutside? p.instructionAddresses with
  | some access =>
      rw [first] at h
      exact .inl ⟨access, rfl, (Option.some.inj h).symm⟩
  | none =>
      rw [first] at h
      exact .inr ⟨Memory.firstOutside?_eq_none_iff.mp first, h⟩

/-! ## Port accesses -/

theorem instructionLength_of_port {direction : PortDirection}
    (opcode : p.peek p.core.registers.pc = direction.opcode) : p.instructionLength = 2 := by
  rw [instructionLength, opcode, direction.length_opcode]

theorem instructionAddresses_of_port {direction : PortDirection}
    (opcode : p.peek p.core.registers.pc = direction.opcode) :
    p.instructionAddresses = [p.core.registers.pc, p.core.registers.pc + 1] := by
  rw [instructionAddresses, instructionLength_of_port opcode]
  rfl

theorem z_of_port {direction : PortDirection} {port : UInt8}
    (opcode : p.peek p.core.registers.pc = direction.opcode)
    (operand : p.memory.byte? (p.core.registers.pc + 1).toNat = some port) :
    p.fetched.core.registers.z = port := by
  change (if 1 < p.instructionLength then p.peek (p.core.registers.pc + 1) else _) = port
  rw [instructionLength_of_port opcode, if_pos (by decide)]
  exact Memory.byteAt_of_byte? operand

theorem stepFault?_of_port (fetching : p.core.acceptable = none)
    (bare : p.ports.input = none ∧ p.ports.output = none) {direction : PortDirection}
    (held : p.memory.byte? p.core.registers.pc.toNat = some direction.opcode) :
    p.stepFault? = some (match p.memory.byte? (p.core.registers.pc + 1).toNat with
      | some port => .missingPortHandler direction port
      | none => .outOfBounds ⟨(p.core.registers.pc + 1).toNat, 1, p.memory.capacity⟩) := by
  have opcode : p.peek p.core.registers.pc = direction.opcode := Memory.byteAt_of_byte? held
  rw [stepFault?, preparationFault?, fetching, prepared_of_fetching fetching,
    instructionAddresses_of_port opcode, accessFault?,
    Memory.firstOutside?_cons_of_lt _ (Memory.lt_of_byte? held)]
  cases operand : p.memory.byte? (p.core.registers.pc + 1).toNat with
  | none =>
      rw [Memory.firstOutside?_cons_of_ge _ (Memory.byte?_eq_none_iff.mp operand)]
      rfl
  | some port =>
      have latched := z_of_port opcode operand
      have record : p.fetched.core.opcode = direction.opcode := opcode
      have executable : ¬ Opcode.Refused p.fetched.core.opcode := by
        rw [record]
        cases direction <;> decide
      have line : p.fetched.operation? = some direction.operation := by
        rw [operation?, ← Operation.decode_eq_operation? executable, record,
          direction.decode_opcode]
      have missing : direction.operation.missingHandler? p.fetched =
          some (.missingPortHandler direction port) := by
        have unattached : p.fetched.ports.input = none ∧ p.fetched.ports.output = none := bare
        cases direction with
        | read =>
            rw [PortDirection.operation, Operation.missingHandler?, unattached.1, latched]
            rfl
        | write =>
            rw [PortDirection.operation, Operation.missingHandler?, unattached.2, latched]
            rfl
      rw [Memory.firstOutside?_cons_of_lt _ (Memory.lt_of_byte? operand),
        Memory.firstOutside?_nil, Option.map_none, Option.none_or, opcodeFault?,
        if_neg executable, line, Option.bind_some, Operation.fault?, missing, Option.some_or]

/-! ## Blame -/

/-- A fault about the instruction at PC, with the text that is shown for it. -/
structure Blames (p : Processor σ) (fault : Fault) (text : String) : Prop where
  shown : (∃ shown, p.memory.disassemble p.core.registers.pc = .ok shown ∧ text = shown.text) ∨
    text = "??"
  /-- There is no text exactly if the fault is about an operand byte of the instruction. -/
  unknown : text = "??" ↔ ∃ i, (i = 1 ∨ i = 2) ∧ i < p.instructionLength ∧
    fault = .outOfBounds
      ⟨(p.core.registers.pc + UInt16.ofNat i).toNat, 1, p.memory.capacity⟩
  opcode : ∀ opcode address, fault = .unimplementedOpcode opcode address →
    p.memory.byte? p.core.registers.pc.toNat = some opcode ∧ address = p.core.registers.pc
  port : ∀ direction port, fault = .missingPortHandler direction port →
    p.memory.byte? p.core.registers.pc.toNat = some direction.opcode ∧
      p.memory.byte? (p.core.registers.pc + 1).toNat = some port

theorem text_ne_unknown {m : Memory} {address : UInt16} {shown : Disassembly}
    (h : m.disassemble address = .ok shown) : shown.text ≠ "??" := by
  obtain ⟨opcode, low, high, -, rfl, -⟩ := Memory.exists_bytes_of_disassemble h
  intro unknown
  have among : '?' ∈ ((Opcode.entry opcode).render low high).toList := by
    rw [show (Opcode.entry opcode).render low high = "??" from unknown]
    decide
  exact absurd ((Opcode.plain_entry opcode).mem_render among) (by decide)

theorem blames_of_firstOutside? {access : OutOfBounds}
    (found : p.core.registers.pc.toNat < p.memory.capacity)
    (first : p.memory.firstOutside? p.instructionAddresses = some access) :
    p.Blames (.outOfBounds access) "??" := by
  refine ⟨.inr rfl, iff_of_true rfl ?_, nofun, nofun⟩
  obtain ⟨address, listed, outside, rfl⟩ := Memory.exists_of_firstOutside? first
  obtain ⟨i, within, rfl⟩ := mem_instructionAddresses_iff.mp listed
  have positive : i ≠ 0 := by
    rintro rfl
    rw [add_ofNat_zero] at outside
    exact absurd found (Nat.not_lt.mpr outside)
  have longest : p.instructionLength ≤ 3 := Opcode.length_entry_le _
  exact ⟨i, by omega, within, rfl⟩

theorem blames_of_opcodeFault? {shown : Disassembly} (inside : p.Inside p.instructionAddresses)
    (displayed : p.memory.disassemble p.core.registers.pc = .ok shown)
    (failed : p.fetched.opcodeFault? = some fault) : p.Blames fault shown.text := by
  have byte?_of_lt : ∀ i < p.instructionLength,
      p.memory.byte? (p.core.registers.pc + UInt16.ofNat i).toNat =
        some (p.peek (p.core.registers.pc + UInt16.ofNat i)) := fun i within =>
    Memory.byte?_eq_byteAt (inside _ (mem_instructionAddresses_iff.mpr ⟨i, within, rfl⟩))
  have held : p.memory.byte? p.core.registers.pc.toNat = some (p.peek p.core.registers.pc) := by
    have first := byte?_of_lt 0 (Opcode.length_entry_pos _)
    rwa [add_ofNat_zero] at first
  refine ⟨.inl ⟨shown, displayed, rfl⟩, ?_, ?_, ?_⟩
  · refine iff_of_false (text_ne_unknown displayed) ?_
    rintro ⟨i, -, within, rfl⟩
    have stays := Memory.lt_of_byte? (byte?_of_lt i within)
    rcases opcodeFault?_cases failed with refused | ⟨direction, -, missing⟩ | ⟨address, strays⟩
    · cases refused
    · cases missing
    · obtain ⟨outside, same⟩ := strays
      rw [Fault.outOfBounds.injEq, OutOfBounds.mk.injEq] at same
      exact absurd (same.1 ▸ stays) (Nat.not_lt.mpr outside)
  · rintro opcode address rfl
    rcases opcodeFault?_cases failed with refused | ⟨direction, -, missing⟩ | ⟨address, -, strays⟩
    · cases refused
      exact ⟨held, rfl⟩
    · cases missing
    · cases strays
  · rintro direction port rfl
    rcases opcodeFault?_cases failed with refused | ⟨direction, access, missing⟩ |
      ⟨address, -, strays⟩
    · cases refused
    · cases missing
      have opcode : p.peek p.core.registers.pc = direction.opcode := access
      have operand := byte?_of_lt 1 (instructionLength_of_port opcode ▸ Nat.one_lt_two)
      exact ⟨opcode ▸ held, (z_of_port opcode operand).symm ▸ operand⟩
    · cases strays

/-- A step that fails after it has found its opcode tells which operand byte is missing, or what
is wrong with the instruction that disassembling shows. -/
theorem blames_of_stepFault? (fetching : p.core.acceptable = none)
    (found : p.core.registers.pc.toNat < p.memory.capacity) (h : p.stepFault? = some fault) :
    p.Blames fault
      (((p.memory.disassemble p.core.registers.pc).toOption.map Disassembly.text).getD "??") := by
  rcases stepFault?_cases fetching h with ⟨access, first, rfl⟩ | ⟨inside, failed⟩
  · rw [disassemble_eq, first]
    exact blames_of_firstOutside? found first
  · have displayed := p.disassemble_eq
    rw [Memory.firstOutside?_eq_none_iff.mpr inside] at displayed
    rw [displayed]
    exact blames_of_opcodeFault? inside displayed failed

end Processor

end Intel8080
