import Intel8080.Proofs.Comparison.Responses

/-!
# Port traffic

The handlers at the ports are called by IN and by OUT and by nothing else. A call cannot be
taken back, so the question is not what a step leaves but which calls have been made in
between. Handlers that write a tape answer it: the tape of a run holds one transfer for each
IN or OUT that succeeds, in order, with the port in Z and the byte that A holds.
-/

namespace Intel8080

/-! ## Other devices on the ports -/

namespace Processor

variable {σ τ : Type}

def attach (p : Processor σ) (ports : Ports τ) : Processor τ :=
  ⟨p.core, p.memory, ports⟩

theorem prepared_attach (p : Processor σ) (ports : Ports τ) :
    (p.attach ports).prepared = p.prepared.attach ports := by
  cases waiting : p.core.acceptable with
  | some vector =>
      have alike : (p.attach ports).core.acceptable = some vector := waiting
      rw [prepared_of_acceptable waiting, prepared_of_acceptable alike]
      rfl
  | none =>
      have alike : (p.attach ports).core.acceptable = none := waiting
      rw [prepared_of_fetching waiting, prepared_of_fetching alike]
      rfl

end Processor

namespace Operation

open Processor

variable {σ τ : Type}

theorem meaning_attach {operation : Operation} (reads : operation ≠ .input)
    (writes : operation ≠ .output) (p : Processor σ) (ports : Ports τ) :
    operation.meaning (p.attach ports) = (operation.meaning p).attach ports := by
  cases operation with
  | input => exact absurd rfl reads
  | output => exact absurd rfl writes
  | mvi target | mov target source | inr target | dcr target => cases target <;> rfl
  | pop target => cases target <;> rfl
  | jcc condition | ccc condition | rcc condition =>
      have alike : (p.attach ports).core.flags = p.core.flags := rfl
      simp only [meaning, alike]
      split <;> rfl
  | _ => rfl

end Operation

/-! ## Handlers that write a tape -/

/-- One call of a handler: the port, and the byte that it answered or was sent. -/
inductive Transfer where
  | read (port answer : UInt8)
  | write (port value : UInt8)
  deriving DecidableEq

namespace Ports

variable {σ : Type}

/-- The same handlers, which also write each of their calls to the end of a tape. -/
def taped (ports : Ports σ) (tape : List Transfer) : Ports (σ × List Transfer) where
  device := (ports.device, tape)
  input := ports.input.map fun handler port (device, tape) =>
    let (answer, device) := handler port device
    (answer, device, tape ++ [.read port answer])
  output := ports.output.map fun handler port value (device, tape) =>
    (handler port value device, tape ++ [.write port value])

end Ports

def Opcode.input : UInt8 := 0xdb

def Opcode.output : UInt8 := 0xd3

namespace Operation

private theorem ports_table : ∀ n : Fin 256,
    (decode (UInt8.ofNat n) = some input ↔ UInt8.ofNat n = Opcode.input) ∧
      (decode (UInt8.ofNat n) = some output ↔ UInt8.ofNat n = Opcode.output) := by
  decide +kernel

theorem decode_eq_port_iff (opcode : UInt8) :
    (decode opcode = some input ↔ opcode = Opcode.input) ∧
      (decode opcode = some output ↔ opcode = Opcode.output) := by
  have line := ports_table ⟨opcode.toNat, opcode.toNat_lt⟩
  rwa [UInt8.ofNat_toNat] at line

end Operation

namespace Processor

variable {σ : Type} {p q : Processor σ} {cost : Nat} {fault : Fault}

def taped (p : Processor σ) (tape : List Transfer) : Processor (σ × List Transfer) :=
  p.attach (p.ports.taped tape)

/-- The opcode that the next step executes: that of an interrupt that it accepts, or the byte
at PC. -/
def nextOpcode (p : Processor σ) : UInt8 :=
  p.core.acceptable.getD (p.peek p.core.registers.pc)

/-- What a port access of the next step finds in Z. An accepted interrupt has no operand
bytes, and the latch is as the last instruction has left it. -/
def nextPort (p : Processor σ) : UInt8 :=
  if p.core.acceptable.isSome then p.core.registers.z else p.peek (p.core.registers.pc + 1)

/-- The call that the next step makes: a successful IN reads into A from the port in Z, a
successful OUT sends A there, and nothing else calls. -/
def transfer? (p : Processor σ) : Option Transfer :=
  match p.step with
  | (.ok _, q) =>
      if p.nextOpcode = Opcode.input then some (.read q.core.registers.z q.core.registers.a)
      else if p.nextOpcode = Opcode.output then some (.write q.core.registers.z p.core.registers.a)
      else none
  | (.error _, _) => none

/-- The calls that the steps of a history make, in order. -/
def traffic (p : Processor σ) : List Stimulus → List Transfer
  | [] => []
  | .step :: rest => p.transfer?.toList ++ p.step.2.traffic rest
  | stimulus :: rest => (p.respond stimulus).traffic rest

/-! ## One step -/

theorem prepared_opcode (p : Processor σ) : p.prepared.core.opcode = p.nextOpcode := by
  unfold nextOpcode
  cases waiting : p.core.acceptable with
  | some vector => rw [prepared_of_acceptable waiting]; rfl
  | none => rw [prepared_of_fetching waiting]; rfl

theorem prepared_taped (p : Processor σ) (tape : List Transfer) :
    (p.taped tape).prepared = p.prepared.taped tape := by
  rw [taped, prepared_attach, taped, prepared_ports]

theorem stepFault?_taped (p : Processor σ) (tape : List Transfer) :
    (p.taped tape).stepFault? = p.stepFault? := by
  have handler (operation : Operation) :
      operation.fault? (p.prepared.taped tape) = operation.fault? p.prepared := by
    have missing : operation.missingHandler? (p.prepared.taped tape) =
        operation.missingHandler? p.prepared := by
      cases operation <;> simp [Operation.missingHandler?, taped, attach, Ports.taped]
    rw [Operation.fault?, missing]
    rfl
  have executing : (p.prepared.taped tape).opcodeFault? = p.prepared.opcodeFault? := by
    unfold opcodeFault?
    simp only [handler]
    rfl
  rw [stepFault?, prepared_taped, executing]
  rfl

theorem opcodeMeaning_taped {operation : Operation} (line : p.operation? = some operation)
    (connected : operation.missingHandler? p = none) (tape : List Transfer) :
    (p.taped tape).opcodeMeaning =
      (p.opcodeMeaning.1, p.opcodeMeaning.2.taped (tape ++
        if operation = .input then
          [.read p.core.registers.z p.opcodeMeaning.2.core.registers.a]
        else if operation = .output then [.write p.core.registers.z p.core.registers.a]
        else [])) := by
  have alike : (p.taped tape).operation? = some operation := line
  have flags : (p.taped tape).core.flags = p.core.flags := rfl
  rw [opcodeMeaning, opcodeMeaning, line, alike, flags]
  refine congrArg (Prod.mk _) ?_
  obtain ⟨core, memory, ⟨device, input, output⟩⟩ := p
  by_cases reads : operation = .input
  · subst reads
    cases input with
    | none => cases connected
    | some handler => rfl
  · by_cases writes : operation = .output
    · subst writes
      cases output with
      | none => cases connected
      | some handler => rfl
    · have kept := (operation.frame_meaning ⟨core, memory, ⟨device, input, output⟩⟩).ports
        reads writes
      rw [if_neg reads, if_neg writes, List.append_nil, taped, taped, kept]
      exact Operation.meaning_attach reads writes _ _

theorem opcodeFault?_of_step (stepped : p.step = (.ok cost, q)) :
    p.prepared.opcodeFault? = none := by
  have faultless : p.stepFault? = none := step_ok_iff.mp ⟨cost, by rw [stepped]⟩
  exact (Option.or_eq_none_iff.mp faultless).2

theorem executes_iff {operation : Operation} (stepped : p.step = (.ok cost, q))
    (line : p.prepared.operation? = some operation) :
    (p.nextOpcode = Opcode.input ↔ operation = .input) ∧
      (p.nextOpcode = Opcode.output ↔ operation = .output) := by
  have accepted := not_refused_of_opcodeFault?_eq_none (opcodeFault?_of_step stepped)
  have decoded : Operation.decode p.nextOpcode = some operation := by
    rw [← prepared_opcode]
    exact (Operation.decode_eq_operation? accepted).trans line
  have ports := Operation.decode_eq_port_iff p.nextOpcode
  rw [decoded, Option.some.injEq, Option.some.injEq] at ports
  exact ⟨ports.1.symm, ports.2.symm⟩

theorem missingHandler?_of_step {operation : Operation} (stepped : p.step = (.ok cost, q))
    (line : p.prepared.operation? = some operation) :
    operation.missingHandler? p.prepared = none := by
  have executable := opcodeFault?_of_step stepped
  rw [opcodeFault?, if_neg (not_refused_of_opcodeFault?_eq_none executable), line,
    Option.bind_some, Operation.fault?] at executable
  exact (Option.or_eq_none_iff.mp executable).1

theorem transfer?_of_step {operation : Operation} (stepped : p.step = (.ok cost, q))
    (line : p.prepared.operation? = some operation) :
    p.transfer?.toList =
      if operation = .input then [.read p.prepared.core.registers.z q.core.registers.a]
      else if operation = .output then
        [.write p.prepared.core.registers.z p.prepared.core.registers.a]
      else [] := by
  obtain ⟨reads, writes⟩ := executes_iff stepped line
  obtain ⟨other, line', -, rfl⟩ := exists_operation_of_step stepped
  cases line.symm.trans line'
  have latch : (operation.meaning p.prepared).core.registers.z = p.prepared.core.registers.z :=
    (operation.frame_meaning p.prepared).latches.2
  have accumulator : p.prepared.core.registers.a = p.core.registers.a := by
    unfold prepared
    split <;> rfl
  simp only [transfer?, stepped, reads, writes, latch, accumulator]
  split
  · rfl
  · split <;> rfl

/-- A step does the same to a processor whose handlers write a tape, and writes there what it
transfers. -/
theorem step_taped (p : Processor σ) (tape : List Transfer) :
    (p.taped tape).step = (p.step.1, p.step.2.taped (tape ++ p.transfer?.toList)) := by
  have faults := p.stepFault?_taped tape
  cases faulty : p.stepFault? with
  | some fault =>
      rw [faulty] at faults
      rw [step_of_stepFault? faults, transfer?, step_of_stepFault? faulty]
      simp
  | none =>
      rw [faulty] at faults
      have stepped := step_of_no_fault faulty
      obtain ⟨operation, line, -⟩ := exists_operation_of_step stepped
      rw [step_of_no_fault faults, prepared_taped,
        opcodeMeaning_taped line (missingHandler?_of_step stepped line),
        transfer?_of_step stepped line, stepped]

/-- The tape of a run holds the transfers of its steps, and the run is the same without it. -/
theorem after_taped (p : Processor σ) (tape : List Transfer) (history : List Stimulus) :
    (p.taped tape).after history = (p.after history).taped (tape ++ p.traffic history) := by
  induction history generalizing p tape with
  | nil => rw [after_nil, after_nil, traffic, List.append_nil]
  | cons stimulus rest ih =>
      cases stimulus with
      | step =>
          have stepped : (p.taped tape).respond .step =
              p.step.2.taped (tape ++ p.transfer?.toList) :=
            congrArg Prod.snd (p.step_taped tape)
          rw [after_cons, after_cons, stepped, ih, traffic, List.append_assoc]
          rfl
      | request vector => exact ih (p.respond (.request vector)) tape
      | reset => exact ih (p.respond .reset) tape
      | setInterrupts enabled => exact ih (p.respond (.setInterrupts enabled)) tape

/-! ## What a transfer changes -/

/-- A step that changes nothing but A, PC, the latches, the opcode in the core, the slot of an
interrupt that it accepts, and the state of the devices. -/
structure MovesByte (p q : Processor σ) : Prop where
  opcode : q.core.opcode = p.nextOpcode
  port : q.core.registers.z = p.nextPort
  registers : ∀ r, r ≠ .a → q.core.registers.get r = p.core.registers.get r
  sp : q.core.registers.sp = p.core.registers.sp
  flags : q.core.flags = p.core.flags
  interrupts : q.core.interruptsEnabled = p.core.interruptsEnabled
  pending : q.core.pendingInterrupt =
    if p.core.acceptable.isSome then none else p.core.pendingInterrupt
  memory : q.memory = p.memory
  handlers : q.ports.input = p.ports.input ∧ q.ports.output = p.ports.output

theorem prepared_port (h : p.nextOpcode = Opcode.input ∨ p.nextOpcode = Opcode.output) :
    p.prepared.core.registers.z = p.nextPort := by
  have long : 1 < (Opcode.entry p.nextOpcode).length := by
    rcases h with reads | writes
    · rw [reads]
      decide +kernel
    · rw [writes]
      decide +kernel
  unfold nextPort
  cases waiting : p.core.acceptable with
  | some vector =>
      rw [prepared_of_acceptable waiting]
      rfl
  | none =>
      have fetched : p.nextOpcode = p.peek p.core.registers.pc := by
        rw [nextOpcode, waiting, Option.getD_none]
      rw [fetched] at long
      rw [prepared_of_fetching waiting]
      exact if_pos long

theorem movesByte_of_step (stepped : p.step = (.ok cost, q))
    (h : p.nextOpcode = Opcode.input ∨ p.nextOpcode = Opcode.output) : p.MovesByte q := by
  obtain ⟨operation, line, -, after⟩ := exists_operation_of_step stepped
  obtain ⟨reads, writes⟩ := executes_iff stepped line
  subst after
  have port : operation = .input ∨ operation = .output := h.imp reads.mp writes.mp
  have frame := operation.frame_meaning p.prepared
  obtain ⟨registers, sp⟩ := p.prepared_registers
  refine ⟨?_, ?_, ?_, ?_, ?_, ?_, ?_, ?_, ?_⟩
  · exact frame.opcode.1.trans p.prepared_opcode
  · exact frame.latches.2.trans (prepared_port h)
  · intro r other
    have unwritten : r ∉ operation.writtenRegisters := by
      rcases port with rfl | rfl <;> simp [Operation.writtenRegisters, other]
    have kept := frame.registers r unwritten
    rw [Manual.register_eq_get] at kept
    exact kept.trans (registers r)
  · have still : operation.movesSP = false := by rcases port with rfl | rfl <;> rfl
    exact (frame.sp still).trans sp
  · rw [← p.prepared_flags]
    rcases port with rfl | rfl <;> simp only [Operation.meaning] <;> split <;> rfl
  · rw [← p.prepared_interruptsEnabled]
    rcases port with rfl | rfl <;> simp only [Operation.meaning] <;> split <;> rfl
  · exact frame.pending.trans p.prepared_pendingInterrupt
  · rw [← p.prepared_memory]
    rcases port with rfl | rfl <;> simp only [Operation.meaning] <;> split <;> rfl
  · rw [← p.prepared_ports]
    exact frame.handlers

theorem input_of_step (stepped : p.step = (.ok cost, q)) (h : p.nextOpcode = Opcode.input) :
    ∃ handler, p.ports.input = some handler ∧
      handler q.core.registers.z p.ports.device = (q.core.registers.a, q.ports.device) := by
  obtain ⟨operation, line, -, after⟩ := exists_operation_of_step stepped
  obtain rfl := (executes_iff stepped line).1.mp h
  have connected := missingHandler?_of_step stepped line
  rw [Operation.missingHandler?, prepared_ports] at connected
  cases attached : p.ports.input with
  | none =>
      rw [attached] at connected
      cases connected
  | some handler =>
      refine ⟨handler, rfl, ?_⟩
      simp only [Operation.meaning, prepared_ports, attached] at after
      rw [after]
      rfl

theorem output_of_step (stepped : p.step = (.ok cost, q)) (h : p.nextOpcode = Opcode.output) :
    q.core.registers.a = p.core.registers.a ∧
      ∃ handler, p.ports.output = some handler ∧
        q.ports.device = handler q.core.registers.z p.core.registers.a p.ports.device := by
  obtain ⟨operation, line, -, after⟩ := exists_operation_of_step stepped
  obtain rfl := (executes_iff stepped line).2.mp h
  have accumulator : p.prepared.core.registers.a = p.core.registers.a :=
    p.prepared_registers.1 .a
  have connected := missingHandler?_of_step stepped line
  rw [Operation.missingHandler?, prepared_ports] at connected
  cases attached : p.ports.output with
  | none =>
      rw [attached] at connected
      cases connected
  | some handler =>
      simp only [Operation.meaning, prepared_ports, attached, accumulator] at after
      rw [after]
      exact ⟨accumulator, handler, rfl, rfl⟩

/-- No other instruction reaches a device. -/
theorem ports_of_step (stepped : p.step = (.ok cost, q)) (reads : p.nextOpcode ≠ Opcode.input)
    (writes : p.nextOpcode ≠ Opcode.output) : q.ports = p.ports := by
  obtain ⟨operation, line, -, after⟩ := exists_operation_of_step stepped
  obtain ⟨input, output⟩ := executes_iff stepped line
  subst after
  have frame := operation.frame_meaning p.prepared
  exact (frame.ports (mt input.mpr reads) (mt output.mpr writes)).trans p.prepared_ports

/-- The calls of handlers along any history are the transfers of its steps, in order. An IN
that succeeds reads its port once and keeps the answer in A, an OUT that succeeds sends A once
and keeps it, both leave everything else alone, and no other step calls a handler, least of all
one that fails. -/
theorem calls_eq_traffic (p : Processor σ) (history : List Stimulus) :
    (p.taped []).after history = (p.after history).taped (p.traffic history) ∧
      (∀ (r q : Processor σ) cost, r.step = (.ok cost, q) → r.nextOpcode = Opcode.input →
        r.transfer? = some (.read q.core.registers.z q.core.registers.a) ∧ r.MovesByte q ∧
          ∃ handler, r.ports.input = some handler ∧
            handler q.core.registers.z r.ports.device = (q.core.registers.a, q.ports.device)) ∧
      (∀ (r q : Processor σ) cost, r.step = (.ok cost, q) → r.nextOpcode = Opcode.output →
        r.transfer? = some (.write q.core.registers.z r.core.registers.a) ∧ r.MovesByte q ∧
          q.core.registers.a = r.core.registers.a ∧
          ∃ handler, r.ports.output = some handler ∧
            q.ports.device = handler q.core.registers.z r.core.registers.a r.ports.device) ∧
      (∀ (r q : Processor σ) cost, r.step = (.ok cost, q) → r.nextOpcode ≠ Opcode.input →
        r.nextOpcode ≠ Opcode.output → r.transfer? = none ∧ q.ports = r.ports) ∧
      ∀ (r : Processor σ) fault, r.step.1 = .error fault →
        r.transfer? = none ∧ ∀ tape, (r.taped tape).step = (.error fault, r.taped tape) := by
  refine ⟨p.after_taped [] history, ?_, ?_, ?_, ?_⟩
  · intro r q cost stepped reads
    refine ⟨?_, movesByte_of_step stepped (.inl reads), input_of_step stepped reads⟩
    simp only [transfer?, stepped, if_pos reads]
  · intro r q cost stepped writes
    have reads : ¬ r.nextOpcode = Opcode.input := by
      rw [writes]
      decide
    refine ⟨?_, movesByte_of_step stepped (.inr writes), output_of_step stepped writes⟩
    simp only [transfer?, stepped, if_neg reads, if_pos writes]
  · intro r q cost stepped reads writes
    refine ⟨?_, ports_of_step stepped reads writes⟩
    simp only [transfer?, stepped, if_neg reads, if_neg writes]
  · intro r fault failed
    have undone : r.step = (.error fault, r) := Prod.ext failed (step_error_keeps failed)
    have silent : r.transfer? = none := by simp only [transfer?, undone]
    refine ⟨silent, fun tape => ?_⟩
    rw [step_taped, undone, silent, Option.toList_none, List.append_nil]

/-- OUT 1 and IN 2, on a device that counts what it is sent and how often it is asked. -/
def counting : Processor Nat where
  core := { Core.cleared with
    registers := { Registers.cleared with a := 7 }
    interruptsEnabled := true }
  memory := ⟨⟨#[0xd3, 0x01, 0xdb, 0x02]⟩⟩
  ports :=
    ⟨0, some fun port n => (port + UInt8.ofNat n, n + 1), some fun _ value n => n + value.toNat⟩

/-- After the program an interrupt puts another IN on the bus, which finds the port of the last
one in Z, and the step after that runs out of memory. -/
def countingHistory : List Stimulus :=
  [.step, .step, .request 0xdb, .step, .step]

theorem calls_eq_traffic_counting :
    ((counting.taped []).after countingHistory).ports.device =
        (9, [.write 1 7, .read 2 9, .read 2 10]) ∧
      counting.transfer? = some (.write 1 7) ∧ counting.MovesByte counting.step.2 := by
  obtain ⟨calls, -, writes, -, -⟩ := calls_eq_traffic counting countingHistory
  have stepped : counting.step = (.ok 10, counting.step.2) := rfl
  obtain ⟨sent, moves, -⟩ := writes counting counting.step.2 10 stepped rfl
  refine ⟨?_, sent, moves⟩
  rw [calls]
  rfl

end Processor

end Intel8080
