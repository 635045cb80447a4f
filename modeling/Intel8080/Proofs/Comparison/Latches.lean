import Intel8080.Proofs.Comparison.Responses

/-!
# Operand latches are private

W and Z, the opcode in the core and its address are left over from the last instruction.
An instruction reads no latch that its own fetch has not filled, because the length on its
line of the data sheet covers the operand bytes that its operation uses. So a processor
behaves the same whatever an earlier instruction, or one that failed half-way through its
fetch, has left there.
-/

namespace Intel8080

namespace Operation

def usesLow : Operation → Bool
  | .lxi _ | .shld | .lhld | .sta | .lda | .jmp | .jcc _ | .call | .ccc _ => true
  | .mvi _ | .aluImmediate _ | .input | .output => true
  | _ => false

def usesHigh : Operation → Bool
  | .lxi _ | .shld | .lhld | .sta | .lda | .jmp | .jcc _ | .call | .ccc _ => true
  | _ => false

theorem usesLow_of_usesHigh {operation : Operation} (h : operation.usesHigh = true) :
    operation.usesLow = true := by
  cases operation <;> first | rfl | cases h

private theorem operands_table : ∀ n : Fin 256, (decode (UInt8.ofNat n)).all fun operation =>
    (!operation.usesLow || decide (1 < (Opcode.entry (UInt8.ofNat n)).length)) &&
      (!operation.usesHigh || decide (2 < (Opcode.entry (UInt8.ofNat n)).length)) := by
  decide +kernel

theorem length_of_decode {opcode : UInt8} {operation : Operation}
    (h : decode opcode = some operation) :
    (operation.usesLow = true → 1 < (Opcode.entry opcode).length) ∧
      (operation.usesHigh = true → 2 < (Opcode.entry opcode).length) := by
  have line := operands_table ⟨opcode.toNat, opcode.toNat_lt⟩
  simp only [UInt8.ofNat_toNat, h, Option.all_some, Bool.and_eq_true, Bool.or_eq_true,
    Bool.not_eq_true', decide_eq_true_eq] at line
  obtain ⟨low, high⟩ := line
  constructor
  · intro uses
    exact low.resolve_left (by simp [uses])
  · intro uses
    exact high.resolve_left (by simp [uses])

end Operation

namespace Processor

variable {σ : Type}

/-- The processor with other bytes in its operand latches. -/
def withLatches (p : Processor σ) (w z : UInt8) : Processor σ :=
  p.mapRegisters fun r => { r with w, z }

/-- The processor as another instruction would have left it, in the places that no
program can read. -/
def withResidue (p : Processor σ) (w z opcode : UInt8) (address : UInt16) : Processor σ :=
  { p with core := { (p.withLatches w z).core with opcode, opcodeAddress := address } }

/-- The processor with those places cleared. -/
def visible (p : Processor σ) : Processor σ :=
  p.withResidue 0 0 0 0

/-- `w` and `z` differ from the latches at most where the instruction in the core has no
operand byte. -/
def Unread (p : Processor σ) (w z : UInt8) : Prop :=
  (1 < (Opcode.entry p.core.opcode).length → z = p.core.registers.z) ∧
    (2 < (Opcode.entry p.core.opcode).length → w = p.core.registers.w)

@[simp] theorem withLatches_self (p : Processor σ) :
    p.withLatches p.core.registers.w p.core.registers.z = p := rfl

theorem exists_withResidue {p q : Processor σ} (h : p.visible = q.visible) :
    ∃ w z opcode address, q = p.withResidue w z opcode address := by
  refine ⟨q.core.registers.w, q.core.registers.z, q.core.opcode, q.core.opcodeAddress, ?_⟩
  obtain ⟨⟨⟨_, _, _, _, _, _, _, _, _, _, _⟩, _, _, _, _, _⟩, _, _⟩ := p
  obtain ⟨⟨⟨_, _, _, _, _, _, _, _, _, _, _⟩, _, _, _, _, _⟩, _, _⟩ := q
  simp [visible, withResidue, withLatches, mapRegisters] at h ⊢
  simp [h]

end Processor

/-! ## Operations -/

namespace Operation

open Processor

variable {σ : Type} {operation : Operation} {p : Processor σ} {w z : UInt8}

theorem fault?_withLatches (low : operation.usesLow = true → z = p.core.registers.z)
    (high : operation.usesHigh = true → w = p.core.registers.w) :
    operation.fault? (p.withLatches w z) = operation.fault? p := by
  by_cases wide : operation.usesHigh = true
  · rw [low (usesLow_of_usesHigh wide), high wide, withLatches_self]
  · cases operation with
    | shld | lhld | sta | lda => exact absurd rfl wide
    | input | output =>
        rw [low rfl]
        rfl
    | stax pointer | ldax pointer => cases pointer <;> rfl
    | mov target source => cases target <;> cases source <;> rfl
    | alu op operand | inr operand | dcr operand | mvi operand => cases operand <;> rfl
    | _ => rfl

private theorem input_withLatches (p : Processor σ) (w : UInt8) :
    input.meaning (p.withLatches w p.core.registers.z) =
      (input.meaning p).withLatches w p.core.registers.z := by
  obtain ⟨core, memory, ⟨device, input, output⟩⟩ := p
  cases input <;> rfl

private theorem output_withLatches (p : Processor σ) (w : UInt8) :
    output.meaning (p.withLatches w p.core.registers.z) =
      (output.meaning p).withLatches w p.core.registers.z := by
  obtain ⟨core, memory, ⟨device, input, output⟩⟩ := p
  cases output <;> rfl

/-- An operation leaves the latches alone and has the same effect under other latches,
where it does not use them. -/
theorem meaning_withLatches (low : operation.usesLow = true → z = p.core.registers.z)
    (high : operation.usesHigh = true → w = p.core.registers.w) :
    operation.meaning (p.withLatches w z) = (operation.meaning p).withLatches w z := by
  by_cases wide : operation.usesHigh = true
  · obtain ⟨keepsW, keepsZ⟩ := (operation.frame_meaning p).latches
    have kept := (operation.meaning p).withLatches_self
    rw [keepsW, keepsZ] at kept
    rw [low (usesLow_of_usesHigh wide), high wide, withLatches_self, kept]
  · cases operation with
    | lxi pair | shld | lhld | sta | lda | jmp | jcc condition | call | ccc condition =>
        exact absurd rfl wide
    | stax pointer | ldax pointer => cases pointer <;> rfl
    | inx pair | dcx pair | dad pair => cases pair <;> rfl
    | inr target | dcr target | mov target source =>
        cases target with
        | memory => rfl
        | register r => cases r <;> rfl
    | mvi target =>
        rw [low rfl]
        cases target with
        | memory => rfl
        | register r => cases r <;> rfl
    | aluImmediate op =>
        rw [low rfl]
        rfl
    | rcc condition =>
        simp only [meaning]
        exact (apply_ite (fun q : Processor σ => q.withLatches w z)
          (Manual.met p.core.flags condition = true) p.leave p).symm
    | pop target => cases target <;> rfl
    | input =>
        rw [low rfl]
        exact input_withLatches p w
    | output =>
        rw [low rfl]
        exact output_withLatches p w
    | _ => rfl

end Operation

namespace Processor

variable {σ : Type} {p q : Processor σ} {w z : UInt8}

/-! ## Instructions -/

theorem unread_of_operation? {operation : Operation} (unread : p.Unread w z)
    (accepted : ¬ Opcode.Refused p.core.opcode) (line : p.operation? = some operation) :
    (operation.usesLow = true → z = p.core.registers.z) ∧
      (operation.usesHigh = true → w = p.core.registers.w) := by
  have decoded := (Operation.decode_eq_operation? accepted).trans line
  obtain ⟨low, high⟩ := Operation.length_of_decode decoded
  exact ⟨fun uses => unread.1 (low uses), fun uses => unread.2 (high uses)⟩

theorem opcodeFault?_withLatches (unread : p.Unread w z) :
    (p.withLatches w z).opcodeFault? = p.opcodeFault? := by
  by_cases refused : Opcode.Refused p.core.opcode
  · have alike : Opcode.Refused (p.withLatches w z).core.opcode := refused
    rw [opcodeFault?, opcodeFault?, if_pos refused, if_pos alike]
    rfl
  · have alike : ¬ Opcode.Refused (p.withLatches w z).core.opcode := refused
    obtain ⟨operation, line⟩ := exists_operation refused
    obtain ⟨low, high⟩ := unread_of_operation? unread refused line
    have same : (p.withLatches w z).operation? = some operation := line
    rw [opcodeFault?, opcodeFault?, if_neg refused, if_neg alike, line, same]
    exact Operation.fault?_withLatches low high

theorem opcodeMeaning_withLatches (unread : p.Unread w z)
    (accepted : ¬ Opcode.Refused p.core.opcode) :
    (p.withLatches w z).opcodeMeaning =
      (p.opcodeMeaning.1, p.opcodeMeaning.2.withLatches w z) := by
  obtain ⟨operation, line⟩ := exists_operation accepted
  obtain ⟨low, high⟩ := unread_of_operation? unread accepted line
  have same : (p.withLatches w z).operation? = some operation := line
  rw [opcodeMeaning, opcodeMeaning, line, same]
  exact congrArg _ (Operation.meaning_withLatches low high)

/-- Executing an instruction reads no latch that it has no operand byte for, and leaves
every latch alone. -/
theorem dispatch_withLatches (unread : p.Unread w z) :
    Exec.dispatch (p.withLatches w z) =
      match Exec.dispatch p with
      | .ok cost after => .ok cost (after.withLatches w z)
      | .error fault after => .error fault (after.withLatches w z) := by
  rw [Exec.dispatch_eq, Exec.dispatch_eq, opcodeFault?_withLatches unread]
  cases faulty : p.opcodeFault? with
  | some fault => rfl
  | none =>
      rw [opcodeMeaning_withLatches unread (not_refused_of_opcodeFault?_eq_none faulty)]
      rfl

/-! ## Steps -/

def AwaitsOneByte (p : Processor σ) : Prop :=
  ∀ vector, p.core.pendingInterrupt = some vector → (Opcode.entry vector).length = 1

theorem prepared_withResidue (awaits : p.AwaitsOneByte) (w z opcode : UInt8) (address : UInt16) :
    ∃ w' z', (p.withResidue w z opcode address).prepared = p.prepared.withLatches w' z' ∧
      p.prepared.Unread w' z' := by
  cases waiting : p.core.acceptable with
  | some vector =>
      have alike : (p.withResidue w z opcode address).core.acceptable = some vector := waiting
      rw [prepared_of_acceptable waiting, prepared_of_acceptable alike]
      have short : (Opcode.entry vector).length = 1 :=
        awaits vector (Core.acceptable_eq_some_iff.mp waiting).2
      refine ⟨w, z, rfl, ?_, ?_⟩
      · intro long
        change 1 < (Opcode.entry vector).length at long
        omega
      · intro long
        change 2 < (Opcode.entry vector).length at long
        omega
  | none =>
      have alike : (p.withResidue w z opcode address).core.acceptable = none := waiting
      rw [prepared_of_fetching waiting, prepared_of_fetching alike]
      refine ⟨_, _, rfl, ?_, ?_⟩
      · intro long
        exact (if_pos long).trans (if_pos long).symm
      · intro long
        exact (if_pos long).trans (if_pos long).symm

theorem step_withResidue (awaits : p.AwaitsOneByte) (w z opcode : UInt8) (address : UInt16) :
    (p.withResidue w z opcode address).step.1 = p.step.1 ∧
      (p.withResidue w z opcode address).step.2.visible = p.step.2.visible := by
  obtain ⟨w', z', ready, unread⟩ := prepared_withResidue awaits w z opcode address
  have fetches : (p.withResidue w z opcode address).preparationFault? = p.preparationFault? := rfl
  have faults : (p.withResidue w z opcode address).stepFault? = p.stepFault? := by
    rw [stepFault?, ready, fetches, opcodeFault?_withLatches unread]
    rfl
  rw [step_eq, step_eq, faults]
  cases faulty : p.stepFault? with
  | some fault => exact ⟨rfl, rfl⟩
  | none =>
      have accepted : ¬ Opcode.Refused p.prepared.core.opcode :=
        not_refused_of_opcodeFault?_eq_none (Option.or_eq_none_iff.mp faulty).2
      rw [ready, opcodeMeaning_withLatches unread accepted]
      exact ⟨rfl, rfl⟩

theorem step_of_visible_eq (awaits : p.AwaitsOneByte) (alike : p.visible = q.visible) :
    q.step.1 = p.step.1 ∧ q.step.2.visible = p.step.2.visible := by
  obtain ⟨w, z, opcode, address, rfl⟩ := exists_withResidue alike
  exact step_withResidue awaits w z opcode address

theorem visible_logged (h : p.visible = q.visible) : p.logged.visible = q.logged.visible :=
  congrArg logged h

theorem response_of_visible_eq (awaits : p.AwaitsOneByte) (alike : p.visible = q.visible) :
    q.response = p.response := by
  have answers := (step_of_visible_eq awaits alike).1
  have watched := (step_of_visible_eq (p := p.logged) awaits (visible_logged alike)).2
  have accesses := congrArg (fun r => r.ports.device.2) watched
  unfold response
  rw [answers]
  exact congrArg _ accesses

/-! ## Histories -/

theorem awaitsOneByte_step (awaits : p.AwaitsOneByte) : p.step.2.AwaitsOneByte := by
  intro vector full
  cases stepped : p.step with
  | mk answer after =>
      rw [stepped] at full
      cases answer with
      | error fault =>
          rw [eq_of_step_error stepped] at full
          exact awaits vector full
      | ok cost =>
          rw [pendingInterrupt_of_step stepped] at full
          split at full
          · cases full
          · exact awaits vector full

theorem awaitsOneByte_respond {stimulus : Stimulus} (awaits : p.AwaitsOneByte)
    (asked : ∀ vector, stimulus = .request vector → (Opcode.entry vector).length = 1) :
    (p.respond stimulus).AwaitsOneByte := by
  cases stimulus with
  | request vector =>
      intro other full
      cases full
      exact asked vector rfl
  | step => exact awaitsOneByte_step awaits
  | reset =>
      intro vector full
      cases full
  | setInterrupts enabled => exact awaits

theorem respond_of_visible_eq (awaits : p.AwaitsOneByte) (alike : p.visible = q.visible)
    (stimulus : Stimulus) :
    q.reply stimulus = p.reply stimulus ∧
      (p.respond stimulus).visible = (q.respond stimulus).visible := by
  cases stimulus with
  | step =>
      exact ⟨congrArg (fun response => [response]) (response_of_visible_eq awaits alike),
        (step_of_visible_eq awaits alike).2.symm⟩
  | request vector => exact ⟨rfl, congrArg (fun r => r.requestInterrupt vector) alike⟩
  | reset =>
      have cleared : p.visible.reset = q.visible.reset := congrArg reset alike
      exact ⟨rfl, cleared⟩
  | setInterrupts enabled => exact ⟨rfl, congrArg (fun r => r.setInterrupts enabled) alike⟩

theorem responses_of_visible_eq (awaits : p.AwaitsOneByte) (alike : p.visible = q.visible)
    (history : List Stimulus)
    (asked : ∀ vector, .request vector ∈ history → (Opcode.entry vector).length = 1) :
    q.responses history = p.responses history ∧
      (p.after history).visible = (q.after history).visible := by
  induction history generalizing p q with
  | nil => exact ⟨rfl, alike⟩
  | cons stimulus rest ih =>
      obtain ⟨replies, next⟩ := respond_of_visible_eq awaits alike stimulus
      have waiting : (p.respond stimulus).AwaitsOneByte := by
        apply awaitsOneByte_respond awaits
        rintro vector rfl
        exact asked vector List.mem_cons_self
      have later := ih waiting next fun vector among => asked vector (List.mem_cons_of_mem _ among)
      simp only [responses_cons, after_cons, replies, later, and_self]

theorem length_rst (n : UInt8) : (Opcode.entry (Opcode.rst n)).length = 1 := by
  have table : ∀ k : Fin 8, (Opcode.entry (UInt8.ofNat (0xc7 + 8 * k.val))).length = 1 := by
    decide +kernel
  exact table ⟨n.toNat % 8, Nat.mod_lt _ (by decide)⟩

/-- Processors that differ in their latches and in the last opcode only respond alike to
every history and go on to differ in nothing else, as long as the interrupts in it have no
operand bytes, which is so of every restart. The reason is that an instruction reads only
those latches that its own bytes have filled: none of one byte reads Z, and none of two
bytes reads W. -/
theorem responses_blind_to_latches (alike : p.visible = q.visible) (awaits : p.AwaitsOneByte)
    (history : List Stimulus)
    (asked : ∀ vector, .request vector ∈ history → (Opcode.entry vector).length = 1) :
    q.responses history = p.responses history ∧
      (p.after history).visible = (q.after history).visible ∧
      (∀ n, (Opcode.entry (Opcode.rst n)).length = 1) ∧
      ∀ (r : Processor σ) (w z : UInt8), r.Unread w z →
        Exec.dispatch (r.withLatches w z) =
          match Exec.dispatch r with
          | .ok cost next => .ok cost (next.withLatches w z)
          | .error fault next => .error fault (next.withLatches w z) := by
  obtain ⟨responses, same⟩ := responses_of_visible_eq awaits alike history asked
  exact ⟨responses, same, length_rst, fun r w z unread => dispatch_withLatches unread⟩

/-- OUT 1, and a CALL that ends at the end of memory, with one operand byte inside. -/
def cutShort : Processor Unit where
  core := { Core.cleared with
    registers := { Registers.cleared with a := 7, sp := 4 }
    interruptsEnabled := true }
  memory := ⟨⟨#[0xd3, 0x01, 0xcd, 0x34]⟩⟩
  ports := ⟨(), none, some fun _ _ device => device⟩

/-- It succeeds, fails half-way through a fetch, takes a restart, and fails at once. -/
def cutShortHistory : List Stimulus :=
  [.step, .step, .request 0xcf, .step, .step]

theorem responses_blind_to_latches_cutShort :
    cutShort.visible = (cutShort.withResidue 0xaa 0xbb 0x76 0x1234).visible ∧
      cutShort.AwaitsOneByte ∧
      (cutShort.withResidue 0xaa 0xbb 0x76 0x1234).responses cutShortHistory =
        [⟨.ok 10, [.write 1 7]⟩, ⟨.error (.outOfBounds ⟨4, 1, 4⟩), []⟩, ⟨.ok 11, []⟩,
          ⟨.error (.outOfBounds ⟨8, 1, 4⟩), []⟩] ∧
      (cutShort.after cutShortHistory).visible =
        ((cutShort.withResidue 0xaa 0xbb 0x76 0x1234).after cutShortHistory).visible := by
  have awaits : cutShort.AwaitsOneByte := by
    intro vector full
    cases full
  have asked : ∀ vector, .request vector ∈ cutShortHistory →
      (Opcode.entry vector).length = 1 := by
    intro vector among
    simp [cutShortHistory] at among
    subst among
    rfl
  obtain ⟨responses, same, -⟩ := responses_blind_to_latches rfl awaits cutShortHistory asked
  exact ⟨rfl, awaits, responses, same⟩

end Processor

end Intel8080
