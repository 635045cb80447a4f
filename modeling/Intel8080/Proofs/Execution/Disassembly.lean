import Intel8080.Disassembly
import Intel8080.Monitor
import Intel8080.Proofs.Execution.Refinement

/-!
# Disassembly shows what is executed

Disassembling and fetching read the same bytes in the same order, and the text of an
instruction depends on no more operand bytes than its length covers. Disassembling puts
zeros where fetching leaves what an earlier instruction has put into the latches, and no
text shows the difference. Neither does executing the instruction, which leaves the opcode
and the latches in the core alone.
-/

namespace Intel8080

theorem Opcode.render_congr {opcode low high low' high' : UInt8}
    (first : 1 < (entry opcode).length → low = low')
    (second : 2 < (entry opcode).length → high = high') :
    (entry opcode).render low high = (entry opcode).render low' high' := by
  have sized := length_entry opcode
  cases kind : (entry opcode).immediate with
  | none => rw [Entry.render, Entry.render, kind, Immediate.text, Immediate.text]
  | byte =>
      rw [kind] at sized
      rw [Entry.render, Entry.render, kind, first (by rw [sized]; decide)]
      rfl
  | word | address =>
      rw [kind] at sized
      rw [first (by rw [sized]; decide), second (by rw [sized]; decide)]

namespace Memory

theorem readOperandIf_eq (m : Memory) (present : Prop) [Decidable present] (address : UInt16) :
    m.readOperandIf present address =
      match m.firstOutside? (if present then [address] else []) with
      | some access => .error access
      | none => .ok (if present then m.byteAt address else 0) := by
  unfold readOperandIf
  by_cases h : present
  · simp only [h, decide_true, if_true]
    exact m.read_eq address
  · simp [h]

end Memory

namespace Processor

variable {σ : Type} {p q : Processor σ} {cost : Nat}

theorem render_eq_disassembly (p : Processor σ) :
    (Opcode.entry (p.peek p.core.registers.pc)).render
        (if 1 < p.instructionLength then p.peek (p.core.registers.pc + 1) else 0)
        (if 2 < p.instructionLength then p.peek (p.core.registers.pc + 2) else 0) =
      p.fetchedCore.disassembly := by
  apply Opcode.render_congr
  · intro long
    exact (if_pos long).trans (if_pos long).symm
  · intro long
    exact (if_pos long).trans (if_pos long).symm

/-- Disassembling fails at the first byte of the instruction that lies outside memory, and
otherwise shows the instruction as fetching it would leave it in the core. -/
theorem disassemble_eq (p : Processor σ) :
    p.memory.disassemble p.core.registers.pc =
      match p.memory.firstOutside? p.instructionAddresses with
      | some access => .error access
      | none => .ok ⟨p.fetchedCore.disassembly, p.instructionLength⟩ := by
  rw [instructionAddresses_eq, Memory.firstOutside?_append, Memory.firstOutside?_append,
    Memory.disassemble, Memory.read_eq]
  cases p.memory.firstOutside? [p.core.registers.pc] with
  | some access => rfl
  | none =>
      rw [← render_eq_disassembly]
      change (do
        let low ← p.memory.readOperandIf (1 < p.instructionLength) (p.core.registers.pc + 1)
        let high ← p.memory.readOperandIf (2 < p.instructionLength) (p.core.registers.pc + 2)
        return Disassembly.mk ((Opcode.entry (p.peek p.core.registers.pc)).render low high)
          p.instructionLength) = _
      rw [Memory.readOperandIf_eq, Memory.readOperandIf_eq]
      cases p.memory.firstOutside?
        (if 1 < p.instructionLength then [p.core.registers.pc + 1] else []) with
      | some access => rfl
      | none =>
          cases p.memory.firstOutside?
            (if 2 < p.instructionLength then [p.core.registers.pc + 2] else []) <;> rfl

theorem disassemble_error_iff {access : OutOfBounds} :
    p.memory.disassemble p.core.registers.pc = .error access ↔
      Exec.fetch p = .error (.outOfBounds access) p.fetchedInPart := by
  rw [disassemble_eq, Exec.fetch_eq, accessFault?]
  cases p.memory.firstOutside? p.instructionAddresses <;> simp

theorem fetch_of_disassemble {shown : Disassembly}
    (h : p.memory.disassemble p.core.registers.pc = .ok shown) :
    Exec.fetch p = .ok () p.fetched ∧
      shown = ⟨p.fetchedCore.disassembly, p.instructionLength⟩ := by
  rw [disassemble_eq] at h
  rw [Exec.fetch_eq, accessFault?]
  cases outside : p.memory.firstOutside? p.instructionAddresses with
  | some access =>
      rw [outside] at h
      cases h
  | none =>
      rw [outside] at h
      cases h
      exact ⟨rfl, rfl⟩

/-! ## After the instruction -/

theorem disassembly_meaning (operation : Operation) (p : Processor σ) :
    (operation.meaning p).core.disassembly = p.core.disassembly := by
  obtain ⟨w, z⟩ := (operation.frame_meaning p).latches
  have opcode := (operation.frame_meaning p).opcode.1
  rw [Core.disassembly, w, z, opcode]
  rfl

theorem disassembly_of_step (fetching : p.core.acceptable = none) (h : p.step = (.ok cost, q)) :
    ∃ shown, p.memory.disassemble p.core.registers.pc = .ok shown ∧
      q.core.disassembly = shown.text := by
  have faultless : p.stepFault? = none := step_ok_iff.mp ⟨cost, by rw [h]⟩
  have ready := (Option.or_eq_none_iff.mp faultless).1
  rw [preparationFault?, fetching] at ready
  have inside : p.memory.firstOutside? p.instructionAddresses = none :=
    Option.map_eq_none_iff.mp ready
  refine ⟨⟨p.fetchedCore.disassembly, p.instructionLength⟩, ?_, ?_⟩
  · rw [disassemble_eq, inside]
  · obtain ⟨operation, -, -, rfl⟩ := exists_operation_of_step h
    rw [disassembly_meaning, prepared_of_fetching fetching]
    rfl

/-! ## Agreement -/

/-- Disassembling at PC fails as fetching does, with the same refusal. If it succeeds, its
length is what fetching adds to PC, and its text is that of the fetched instruction: in the
core right after the fetch, in the trace of the run, and in the core after the step, even
if the instruction has overwritten itself. -/
theorem disassembly_agrees_with_fetch (p : Processor σ) :
    (∀ access, p.memory.disassemble p.core.registers.pc = .error access ↔
      ∃ left, Exec.fetch p = .error (.outOfBounds access) left) ∧
    (∀ ready, Exec.fetch p = .ok () ready →
      ∃ shown, p.memory.disassemble p.core.registers.pc = .ok shown) ∧
    (∀ shown, p.memory.disassemble p.core.registers.pc = .ok shown →
      ∃ ready, Exec.fetch p = .ok () ready ∧
        ready.core.registers.pc = p.core.registers.pc + UInt16.ofNat shown.length ∧
        ready.core.disassembly = shown.text ∧
        (p.core.acceptable = none → ∀ remark, ∃ rest,
          p.stepNotices remark = .fetched ready.core :: rest ∧
            (Notice.fetched ready.core).line = "TRACE" ++ " " ++
              s!"{Hex.word p.core.registers.pc}  {Notice.padRight 16 shown.text} {ready.core.dump}")) ∧
    ∀ cost q, p.core.acceptable = none → p.step = (.ok cost, q) →
      ∃ shown, p.memory.disassemble p.core.registers.pc = .ok shown ∧
        q.core.disassembly = shown.text := by
  refine ⟨fun access => ⟨fun refused => ⟨_, disassemble_error_iff.mp refused⟩, ?_⟩, ?_, ?_,
    fun cost q => disassembly_of_step⟩
  · rintro ⟨left, failed⟩
    cases result : p.memory.disassemble p.core.registers.pc with
    | error other =>
        cases failed.symm.trans (disassemble_error_iff.mp result)
        rfl
    | ok shown => cases failed.symm.trans (fetch_of_disassemble result).1
  · intro ready fetched
    cases result : p.memory.disassemble p.core.registers.pc with
    | error access => cases fetched.symm.trans (disassemble_error_iff.mp result)
    | ok shown => exact ⟨shown, rfl⟩
  · intro shown h
    obtain ⟨fetched, rfl⟩ := fetch_of_disassemble h
    refine ⟨p.fetched, fetched, rfl, rfl, ?_⟩
    intro fetching remark
    refine ⟨operationNotices p.fetchedCore p.ports remark, ?_, rfl⟩
    rw [stepNotices, fetching, fetched]
    rfl

/-- STA 0000 at address zero, which puts the opcode of HLT in its own place. -/
def selfErasing : Processor Unit where
  core := { Core.cleared with registers := { Registers.cleared with a := 0x76 } }
  memory := ⟨⟨#[0x32, 0x00, 0x00]⟩⟩
  ports := ⟨(), none, none⟩

theorem disassembly_agrees_with_fetch_selfErasing :
    selfErasing.memory.disassemble 0 = .ok ⟨"STA $0000", 3⟩ ∧
      selfErasing.step.2.memory.disassemble 0 = .ok ⟨"HLT", 1⟩ ∧
      selfErasing.step.2.core.disassembly = "STA $0000" := by
  obtain ⟨-, -, -, kept⟩ := disassembly_agrees_with_fetch selfErasing
  have before : selfErasing.memory.disassemble 0 = .ok ⟨"STA $0000", 3⟩ := rfl
  obtain ⟨shown, same, text⟩ := kept 13 selfErasing.step.2 rfl rfl
  cases before.symm.trans same
  exact ⟨before, rfl, text⟩

end Processor

end Intel8080
