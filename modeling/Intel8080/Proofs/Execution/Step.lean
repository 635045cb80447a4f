import Intel8080.Proofs.Execution.Perform

/-!
# Steps by fault and meaning

A step first prepares an opcode, from the pending interrupt or from memory, and then
executes it. Both have outcomes, so a step is one equation: it reports its first fault
and changes nothing, or it does what the manual says of the prepared opcode.
-/

namespace Intel8080

theorem Core.acceptable_eq_some_iff {core : Core} {vector : UInt8} :
    core.acceptable = some vector ↔
      core.interruptsEnabled = true ∧ core.pendingInterrupt = some vector := by
  unfold acceptable
  cases core.interruptsEnabled <;> simp

theorem Core.acceptable_of_disabled {core : Core} (h : core.interruptsEnabled = false) :
    core.acceptable = none := by
  rw [acceptable, h]
  rfl

theorem Core.acceptable_of_idle {core : Core} (idle : core.pendingInterrupt = none) :
    core.acceptable = none := by
  rw [acceptable, idle]
  split <;> rfl

namespace Processor

variable {σ : Type}

/-- The addresses of the bytes of the instruction at PC, in the order of fetching. -/
def instructionAddresses (p : Processor σ) : List UInt16 :=
  let pc := p.core.registers.pc
  [pc, pc + 1, pc + 2].take p.instructionLength

/-- The processor with its next opcode in the core, accepted or fetched. -/
def prepared (p : Processor σ) : Processor σ :=
  match p.core.acceptable with
  | some vector => { p with core := p.core.accept vector }
  | none => p.fetched

/-- How preparing the next opcode fails. Accepting an interrupt cannot fail. -/
def preparationFault? (p : Processor σ) : Option Fault :=
  match p.core.acceptable with
  | some _ => none
  | none => p.accessFault? p.instructionAddresses

def operation? (p : Processor σ) : Option Operation :=
  (Opcode.entry p.core.opcode).operation?

def opcodeFault? (p : Processor σ) : Option Fault :=
  if Opcode.Refused p.core.opcode then
    some (.unimplementedOpcode p.core.opcode p.core.opcodeAddress)
  else
    p.operation?.bind fun operation => operation.fault? p

/-- The time and the effect of the opcode in the core, as the manual has them. -/
def opcodeMeaning (p : Processor σ) : Nat × Processor σ :=
  match p.operation? with
  | some operation => (operation.duration p.core.flags, operation.meaning p)
  | none => (0, p)

def stepFault? (p : Processor σ) : Option Fault :=
  p.preparationFault?.or p.prepared.opcodeFault?

theorem exists_operation {p : Processor σ} (h : ¬ Opcode.Refused p.core.opcode) :
    ∃ operation, p.operation? = some operation := by
  have named := Operation.decode_eq_operation? h
  cases decoded : Operation.decode p.core.opcode with
  | none => exact absurd ((Operation.decode_eq_none_iff _).mp decoded) h
  | some operation => exact ⟨operation, named.symm.trans decoded⟩

/-! ## Preparation -/

theorem prepared_of_acceptable {p : Processor σ} {vector : UInt8}
    (h : p.core.acceptable = some vector) :
    p.prepared = { p with core := p.core.accept vector } := by
  rw [prepared, h]

theorem prepared_of_fetching {p : Processor σ} (h : p.core.acceptable = none) :
    p.prepared = p.fetched := by
  rw [prepared, h]

@[simp] theorem prepared_memory (p : Processor σ) : p.prepared.memory = p.memory := by
  unfold prepared
  split <;> rfl

@[simp] theorem prepared_flags (p : Processor σ) : p.prepared.core.flags = p.core.flags := by
  unfold prepared
  split <;> rfl

@[simp] theorem prepared_ports (p : Processor σ) : p.prepared.ports = p.ports := by
  unfold prepared
  split <;> rfl

theorem prepared_registers (p : Processor σ) :
    (∀ r, p.prepared.core.registers.get r = p.core.registers.get r) ∧
      p.prepared.core.registers.sp = p.core.registers.sp := by
  unfold prepared
  split
  · exact ⟨fun _ => rfl, rfl⟩
  · exact ⟨fun r => by cases r <;> rfl, rfl⟩

theorem prepared_restored (p : Processor σ) : { p.prepared with core := p.core } = p := by
  unfold prepared
  split <;> rfl

/-! ## Fetching -/

theorem instructionLength_cases (p : Processor σ) :
    p.instructionLength = 1 ∨ p.instructionLength = 2 ∨ p.instructionLength = 3 := by
  have least := Opcode.length_entry_pos (p.peek p.core.registers.pc)
  have most := Opcode.length_entry_le (p.peek p.core.registers.pc)
  unfold instructionLength
  omega

theorem instructionAddresses_eq (p : Processor σ) :
    p.instructionAddresses =
      [p.core.registers.pc] ++
        ((if 1 < p.instructionLength then [p.core.registers.pc + 1] else []) ++
          if 2 < p.instructionLength then [p.core.registers.pc + 2] else []) := by
  unfold instructionAddresses
  rcases p.instructionLength_cases with h | h | h <;> rw [h] <;> rfl

def withLowFetched (p : Processor σ) : Processor σ :=
  p.mapRegisters fun r => { r with z := p.fetchedCore.registers.z }

/-- What a fetch that fails leaves behind: a byte in Z if it is the byte for W that lies
outside memory, and otherwise nothing. -/
def fetchedInPart (p : Processor σ) : Processor σ :=
  if (p.accessFault? [p.core.registers.pc, p.core.registers.pc + 1]).isNone then
    p.mapRegisters fun r => { r with z := p.peek (p.core.registers.pc + 1) }
  else p

theorem fetchedInPart_restored (p : Processor σ) : { p.fetchedInPart with core := p.core } = p := by
  unfold fetchedInPart
  split <;> rfl

section

variable {p : Processor σ} {fault : Fault}

theorem fetchedInPart_of_outside
    (outside : p.accessFault? [p.core.registers.pc, p.core.registers.pc + 1] = some fault) :
    p.fetchedInPart = p := by
  rw [fetchedInPart, outside]
  rfl

theorem fetchedInPart_of_opcodeOutside
    (outside : p.accessFault? [p.core.registers.pc] = some fault) :
    p.fetchedInPart = p := by
  have stopped : p.accessFault? [p.core.registers.pc, p.core.registers.pc + 1] = some fault := by
    rw [accessFault?_cons, outside, Option.some_or]
  exact fetchedInPart_of_outside stopped

theorem fetchedInPart_of_lowOutside (opcode : p.accessFault? [p.core.registers.pc] = none)
    (outside : p.accessFault?
      (if 1 < p.instructionLength then [p.core.registers.pc + 1] else []) = some fault) :
    p.fetchedInPart = p := by
  split at outside
  · have stopped :
        p.accessFault? [p.core.registers.pc, p.core.registers.pc + 1] = some fault := by
      rw [accessFault?_cons, opcode, Option.none_or, outside]
    exact fetchedInPart_of_outside stopped
  · cases outside

theorem fetchedInPart_of_highOutside (opcode : p.accessFault? [p.core.registers.pc] = none)
    (low : p.accessFault?
      (if 1 < p.instructionLength then [p.core.registers.pc + 1] else []) = none)
    (outside : p.accessFault?
      (if 2 < p.instructionLength then [p.core.registers.pc + 2] else []) = some fault) :
    p.fetchedInPart = p.withLowFetched := by
  split at outside
  · next longest =>
      have long : 1 < p.instructionLength := Nat.lt_of_succ_lt longest
      rw [if_pos long] at low
      rw [fetchedInPart, accessFault?_cons, opcode, Option.none_or, low, withLowFetched,
        fetchedCore, if_pos long]
      rfl
  · cases outside

end

end Processor

namespace Exec

open Processor

variable {σ : Type}

private theorem fetchLow_eq (p : Processor σ) :
    fetchLow p.instructionLength p =
      p.outcome (p.accessFault? (if 1 < p.instructionLength then [p.core.registers.pc + 1] else []))
        () p.withLowFetched := by
  unfold fetchLow withLowFetched fetchedCore
  split
  · exact (bind_of_ok rfl).trans (outcome_bind_ok (readByte_eq _ p) rfl)
  · rfl

private theorem fetchHigh_eq (p : Processor σ) :
    fetchHigh p.instructionLength p.withLowFetched =
      p.withLowFetched.outcome
        (p.accessFault? (if 2 < p.instructionLength then [p.core.registers.pc + 2] else []))
        () (p.withLowFetched.mapRegisters fun r => { r with w := p.fetchedCore.registers.w }) := by
  unfold fetchHigh fetchedCore
  split
  · exact (bind_of_ok rfl).trans (outcome_bind_ok (readByte_eq _ p.withLowFetched) rfl)
  · rfl

/-- A fetch fails at the first byte of the instruction that lies outside memory. -/
theorem fetch_eq (p : Processor σ) :
    fetch p =
      match p.accessFault? p.instructionAddresses with
      | some fault => .error fault p.fetchedInPart
      | none => .ok () p.fetched := by
  have first := readByte_eq p.core.registers.pc p
  have second := fetchLow_eq p
  have third := fetchHigh_eq p
  rw [instructionAddresses_eq, accessFault?_append, accessFault?_append]
  refine (bind_of_ok rfl).trans ?_
  cases opcode : p.accessFault? [p.core.registers.pc] with
  | some fault =>
      rw [opcode] at first
      rw [fetchedInPart_of_opcodeOutside opcode]
      exact bind_of_error first
  | none =>
      rw [opcode] at first
      refine (bind_of_ok first).trans ?_
      cases low : p.accessFault?
        (if 1 < p.instructionLength then [p.core.registers.pc + 1] else []) with
      | some fault =>
          rw [low] at second
          rw [fetchedInPart_of_lowOutside opcode low]
          exact bind_of_error second
      | none =>
          rw [low] at second
          refine (bind_of_ok second).trans ?_
          cases high : p.accessFault?
            (if 2 < p.instructionLength then [p.core.registers.pc + 2] else []) with
          | some fault =>
              rw [high] at third
              rw [fetchedInPart_of_highOutside opcode low high]
              exact bind_of_error third
          | none =>
              rw [high] at third
              refine (bind_of_ok third).trans ((bind_of_ok rfl).trans ?_)
              simp only [setCore, withLowFetched, mapRegisters, Option.or_none]
              rfl

theorem acceptOrFetch_of_fetching {p : Processor σ} (fetching : p.core.acceptable = none) :
    acceptOrFetch p = fetch p := by
  refine (bind_of_ok rfl).trans ?_
  rw [fetching]

theorem acceptOrFetch_eq (p : Processor σ) :
    acceptOrFetch p =
      match p.preparationFault? with
      | some fault => .error fault p.fetchedInPart
      | none => .ok () p.prepared := by
  unfold preparationFault? prepared
  cases accepts : p.core.acceptable with
  | some vector =>
      refine (bind_of_ok rfl).trans ?_
      rw [accepts]
      rfl
  | none => exact (acceptOrFetch_of_fetching accepts).trans (fetch_eq p)

theorem dispatch_eq (p : Processor σ) :
    dispatch p = p.outcome p.opcodeFault? p.opcodeMeaning.1 p.opcodeMeaning.2 := by
  refine (bind_of_ok rfl).trans ?_
  unfold opcodeFault? opcodeMeaning operation?
  by_cases refused : Opcode.Refused p.core.opcode
  · rw [if_pos refused, (Operation.decode_eq_none_iff _).mpr refused]
    rfl
  · have named := Operation.decode_eq_operation? refused
    rw [if_neg refused, ← named]
    cases decoded : Operation.decode p.core.opcode with
    | none => exact absurd ((Operation.decode_eq_none_iff _).mp decoded) refused
    | some operation => exact operation.execute_eq p

end Exec

namespace Processor

variable {σ : Type}

/-! ## Steps -/

theorem step_of_stepFault? {p : Processor σ} {fault : Fault} (h : p.stepFault? = some fault) :
    p.step = (.error fault, p) := by
  have prepares := Exec.acceptOrFetch_eq p
  have executes := Exec.dispatch_eq p.prepared
  unfold stepFault? at h
  unfold step
  cases unprepared : p.preparationFault? with
  | some first =>
      rw [unprepared, Option.some_or] at h
      cases h
      rw [unprepared] at prepares
      have stopped : Exec.advance p = .error fault p.fetchedInPart := Exec.bind_of_error prepares
      rw [stopped]
      exact congrArg _ p.fetchedInPart_restored
  | none =>
      rw [unprepared, Option.none_or] at h
      rw [unprepared] at prepares
      rw [h] at executes
      have stopped : Exec.advance p = .error fault p.prepared :=
        (Exec.bind_of_ok prepares).trans executes
      rw [stopped]
      exact congrArg _ p.prepared_restored

theorem step_of_no_fault {p : Processor σ} (h : p.stepFault? = none) :
    p.step = (.ok p.prepared.opcodeMeaning.1, p.prepared.opcodeMeaning.2) := by
  obtain ⟨ready, done⟩ := Option.or_eq_none_iff.mp h
  have prepares := Exec.acceptOrFetch_eq p
  have executes := Exec.dispatch_eq p.prepared
  rw [ready] at prepares
  rw [done] at executes
  have advanced : Exec.advance p =
      .ok p.prepared.opcodeMeaning.1 p.prepared.opcodeMeaning.2 :=
    (Exec.bind_of_ok prepares).trans executes
  rw [step, advanced]

/-- A step reports its first fault and leaves the processor as it was, or it does what
the manual says. -/
theorem step_eq (p : Processor σ) :
    p.step =
      match p.stepFault? with
      | some fault => (.error fault, p)
      | none => (.ok p.prepared.opcodeMeaning.1, p.prepared.opcodeMeaning.2) := by
  cases h : p.stepFault? with
  | some fault => exact step_of_stepFault? h
  | none => exact step_of_no_fault h

theorem step_error_iff {p : Processor σ} {fault : Fault} :
    p.step.1 = .error fault ↔ p.stepFault? = some fault := by
  rw [step_eq]
  cases p.stepFault? <;> simp

theorem step_ok_iff {p : Processor σ} : (∃ cost, p.step.1 = .ok cost) ↔ p.stepFault? = none := by
  rw [step_eq]
  cases p.stepFault? <;> simp

/-! ## Steps by opcode -/

/-- A step starts by readying an opcode, fetched or accepted, in the core of `ready`. -/
structure Readies (p : Processor σ) (opcode : UInt8) (ready : Processor σ) : Prop where
  prepared : Exec.acceptOrFetch p = .ok () ready
  opcode_eq : ready.core.opcode = opcode

variable {p ready : Processor σ} {opcode : UInt8} {operation : Operation}

theorem Readies.eq_prepared (readies : p.Readies opcode ready) :
    ready = p.prepared ∧ p.preparationFault? = none := by
  have prepares := readies.prepared.symm.trans (Exec.acceptOrFetch_eq p)
  cases unprepared : p.preparationFault? with
  | some fault =>
      rw [unprepared] at prepares
      cases prepares
  | none =>
      rw [unprepared] at prepares
      cases prepares
      exact ⟨rfl, rfl⟩

theorem Readies.step (readies : p.Readies opcode ready)
    (decoded : Operation.decode opcode = some operation) (faultless : operation.fault? ready = none) :
    p.step = (.ok (operation.duration ready.core.flags), operation.meaning ready) := by
  obtain ⟨prepared, rfl⟩ := readies
  have executed := operation.execute_eq ready
  rw [faultless] at executed
  have dispatched : Exec.dispatch ready = operation.execute ready := by
    refine (Exec.bind_of_ok rfl).trans ?_
    rw [decoded]
  have advanced : Exec.advance p =
      .ok (operation.duration ready.core.flags) (operation.meaning ready) :=
    (Exec.bind_of_ok prepared).trans (dispatched.trans executed)
  rw [Processor.step, advanced]

/-! ## Instructions of one byte -/

def pastOpcode (p : Processor σ) (opcode : UInt8) : Processor σ :=
  { p with core := { p.core with
      registers := { p.core.registers with pc := p.core.registers.pc + 1 }
      opcode
      opcodeAddress := p.core.registers.pc } }

theorem fetched_of_single (single : (Opcode.entry (p.peek p.core.registers.pc)).length = 1) :
    p.fetched = p.pastOpcode (p.peek p.core.registers.pc) := by
  simp only [fetched, fetchedCore, instructionLength, single]
  rfl

theorem Readies.of_byte? (fetching : p.core.acceptable = none)
    (held : p.memory.byte? p.core.registers.pc.toNat = some opcode)
    (single : (Opcode.entry opcode).length = 1) : p.Readies opcode (p.pastOpcode opcode) := by
  obtain rfl : p.peek p.core.registers.pc = opcode := Memory.byteAt_of_byte? held
  have faultless : p.preparationFault? = none := by
    rw [preparationFault?, fetching, instructionAddresses, instructionLength, single]
    change (p.memory.firstOutside? [p.core.registers.pc]).map Fault.outOfBounds = none
    rw [Memory.firstOutside?_cons_of_lt _ (Memory.lt_of_byte? held)]
    rfl
  refine ⟨?_, rfl⟩
  rw [Exec.acceptOrFetch_eq, faultless, prepared_of_fetching fetching, fetched_of_single single]

end Processor

end Intel8080
