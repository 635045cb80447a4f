import Intel8080.Proofs.Diagnostic.Iteration
import Intel8080.Proofs.Stack.Linkage

/-!
# The shortcut through the console

A diagnostic session serves a console call and skips it. A real console would be a program at
the address that is called, and the least that it could do is to return. With a RET there, the
call and the return take two steps and lead to where the session goes on. The two ways differ in
what executing an instruction leaves behind: the latches, the record of the opcode, the return
address below SP, and the cycles.
-/

namespace Intel8080

namespace Processor

variable {σ : Type} {p q : Processor σ}

/-! ## Calling -/

theorem Readies.of_inside {opcode : UInt8} (fetching : p.core.acceptable = none)
    (held : p.memory.byte? p.core.registers.pc.toNat = some opcode)
    (long : (Opcode.entry opcode).length = 3)
    (inside : p.Inside [p.core.registers.pc, p.core.registers.pc + 1, p.core.registers.pc + 2]) :
    p.Readies opcode p.fetched := by
  obtain rfl : p.peek p.core.registers.pc = opcode := Memory.byteAt_of_byte? held
  have faultless : p.preparationFault? = none := by
    rw [preparationFault?, fetching, instructionAddresses, instructionLength, long]
    exact accessFault?_eq_none_iff.mpr inside
  refine ⟨?_, rfl⟩
  rw [Exec.acceptOrFetch_eq, faultless, prepared_of_fetching fetching]

theorem step_call (fetching : p.core.acceptable = none)
    (held : p.memory.byte? p.core.registers.pc.toNat = some Opcode.call)
    (operand : p.Inside
      [p.core.registers.pc, p.core.registers.pc + 1, p.core.registers.pc + 2])
    (stack : p.Inside [p.core.registers.sp - 2, p.core.registers.sp - 1]) :
    p.step = (.ok 17, p.fetched.enter (Manual.operandWord p.fetched.core.registers)) := by
  have reachable : p.fetched.accessFault? [p.core.registers.sp - 2, p.core.registers.sp - 1] =
      none := accessFault?_eq_none_iff.mpr stack
  have decoded : Operation.decode Opcode.call = some .call := rfl
  exact (Readies.of_inside fetching held rfl operand).step decoded reachable

theorem pendingInterrupt_fetched (p : Processor σ) :
    p.fetched.core.pendingInterrupt = p.core.pendingInterrupt := rfl

theorem pendingInterrupt_enter (p : Processor σ) (target : UInt16) :
    (p.enter target).core.pendingInterrupt = p.core.pendingInterrupt := rfl

theorem byte?_enter (p : Processor σ) (target : UInt16) {address : Nat}
    (first : (p.core.registers.sp - 1).toNat ≠ address)
    (second : (p.core.registers.sp - 2).toNat ≠ address) :
    (p.enter target).memory.byte? address = p.memory.byte? address :=
  p.byte?_pushBytes _ _ first second

/-! ## A console that returns -/

/-- A console call at PC that can be executed: the console is a RET, and the return address fits
below SP and does not overwrite it. -/
structure CallsStub (p : Processor σ) : Prop where
  idle : p.core.pendingInterrupt = none
  opcode : p.memory.byte? p.core.registers.pc.toNat = some 0xCD
  low : p.memory.byte? (p.core.registers.pc + 1).toNat = some 0x05
  high : p.memory.byte? (p.core.registers.pc + 2).toNat = some 0x00
  stub : p.memory.byte? 0x0005 = some 0xC9
  room : p.Inside [p.core.registers.sp - 2, p.core.registers.sp - 1]
  apart : p.core.registers.sp - 2 ≠ 0x0005 ∧ p.core.registers.sp - 1 ≠ 0x0005

/-- The processor `called` is where `skipped` is, but it has been there by a call and a return:
W and Z hold the operand of the call, the record of the opcode names the RET, and the return
address lies below SP. -/
structure DiffersByCall (skipped called : Processor σ) : Prop where
  pc : called.core.registers.pc = skipped.core.registers.pc
  sp : called.core.registers.sp = skipped.core.registers.sp
  registers : ∀ register,
    called.core.registers.get register = skipped.core.registers.get register
  flags : called.core.flags = skipped.core.flags
  interrupts : called.core.interruptsEnabled = skipped.core.interruptsEnabled
  pending : called.core.pendingInterrupt = skipped.core.pendingInterrupt
  ports : called.ports = skipped.ports
  latches : called.core.registers.w = 0x00 ∧ called.core.registers.z = 0x05
  record : called.core.opcode = 0xC9 ∧ called.core.opcodeAddress = 0x0005
  pushed : called.peek (skipped.core.registers.sp - 1) = highByte skipped.core.registers.pc ∧
    called.peek (skipped.core.registers.sp - 2) = lowByte skipped.core.registers.pc
  capacity : called.memory.capacity = skipped.memory.capacity
  memory : ∀ address,
    (skipped.core.registers.sp - 1).toNat ≠ address →
      (skipped.core.registers.sp - 2).toNat ≠ address →
        called.memory.byte? address = skipped.memory.byte? address

theorem CallsStub.acceptable (stubbed : p.CallsStub) : p.core.acceptable = none :=
  Core.acceptable_of_idle stubbed.idle

theorem CallsStub.operand (stubbed : p.CallsStub) :
    p.Inside [p.core.registers.pc, p.core.registers.pc + 1, p.core.registers.pc + 2] := by
  intro address among
  obtain rfl | rfl | rfl : address = _ ∨ address = _ ∨ address = _ := by simpa using among
  · exact Memory.lt_of_byte? stubbed.opcode
  · exact Memory.lt_of_byte? stubbed.low
  · exact Memory.lt_of_byte? stubbed.high

theorem CallsStub.fetched (stubbed : p.CallsStub) :
    p.fetched.core.registers.pc = p.core.registers.pc + 3 ∧
      p.fetched.core.registers.w = 0x00 ∧ p.fetched.core.registers.z = 0x05 := by
  have opcode : p.peek p.core.registers.pc = 0xCD := Memory.byteAt_of_byte? stubbed.opcode
  have length : p.instructionLength = 3 := by
    rw [instructionLength, opcode]
    rfl
  simp only [Processor.fetched, fetchedCore, length]
  exact ⟨rfl, Memory.byteAt_of_byte? stubbed.high, Memory.byteAt_of_byte? stubbed.low⟩

theorem CallsStub.step_call (stubbed : p.CallsStub) :
    p.step = (.ok 17, p.fetched.enter 0x0005) := by
  obtain ⟨-, w, z⟩ := stubbed.fetched
  have target : Manual.operandWord p.fetched.core.registers = 0x0005 := by
    rw [Manual.operandWord, w, z]
    rfl
  rw [← target]
  exact Processor.step_call stubbed.acceptable stubbed.opcode stubbed.operand stubbed.room

/-- The RET at the console is still there after the call, and takes 10 cycles. -/
theorem CallsStub.step_ret (stubbed : p.CallsStub) :
    (p.fetched.enter 0x0005).step =
      (.ok 10, ((p.fetched.enter 0x0005).pastOpcode Opcode.ret).leave) := by
  have held : (p.fetched.enter 0x0005).memory.byte? 0x0005 = some Opcode.ret := by
    obtain ⟨second, first⟩ := stubbed.apart
    refine (p.fetched.byte?_enter 0x0005 ?_ ?_).trans stubbed.stub
    · exact fun same => first (UInt16.toNat_inj.mp same)
    · exact fun same => second (UInt16.toNat_inj.mp same)
  obtain ⟨reachable, -⟩ := p.fetched.top_pushBytes
    (Manual.upper p.fetched.core.registers.pc) (Manual.lower p.fetched.core.registers.pc)
    stubbed.room
  have idle : (p.fetched.enter 0x0005).core.pendingInterrupt = none := by
    rw [pendingInterrupt_enter, pendingInterrupt_fetched, stubbed.idle]
  exact Leaves.ret.step (Core.acceptable_of_idle idle) held reachable

theorem CallsStub.differsByCall (stubbed : p.CallsStub) :
    (p.jump (p.core.registers.pc + 3)).DiffersByCall
      ((p.fetched.enter 0x0005).pastOpcode Opcode.ret).leave := by
  obtain ⟨pc, w, z⟩ := stubbed.fetched
  have room : p.fetched.Inside [p.core.registers.sp - 1, p.core.registers.sp - 2] := by
    intro address among
    exact stubbed.room address (by simpa [or_comm] using among)
  rw [leave_enter p.fetched 0x0005 Opcode.ret stubbed.room]
  constructor
  case pc => exact pc
  case sp => rfl
  case registers => exact fun register => by cases register <;> rfl
  case flags => rfl
  case interrupts => rfl
  case pending => rfl
  case ports => rfl
  case latches => exact ⟨w, z⟩
  case record => exact ⟨rfl, rfl⟩
  case pushed =>
    rw [← Manual.upper_eq_highByte, ← Manual.lower_eq_lowByte]
    obtain ⟨high, low⟩ := p.fetched.peek_pushBytes (Manual.upper p.fetched.core.registers.pc)
      (Manual.lower p.fetched.core.registers.pc) room
    exact ⟨high.trans (congrArg Manual.upper pc), low.trans (congrArg Manual.lower pc)⟩
  case capacity => exact p.fetched.capacity_pushBytes _ _
  case memory => exact fun address first second => p.fetched.byte?_pushBytes _ _ first second

end Processor

/-! ## A console that is skipped -/

namespace Diagnostic

open Processor

variable {σ : Type} {p : Processor σ} {s t : Session} {textOffset : UInt16}

theorem Session.decide_of_callsStub (stubbed : p.CallsStub) (core : s.core = p.core)
    (memory : s.memory = p.memory) (away : ¬ (p.core.registers.pc = 0 ∧ 1 < s.steps)) :
    s.decide = .ok .console := by
  obtain ⟨⟨⟨_, _, ports⟩, journal, remark⟩, output, steps, cycles⟩ := s
  obtain rfl : _ = p.core := core
  obtain rfl : _ = p.memory := memory
  have opcode : p.memory.byteAt p.core.registers.pc = callOpcode :=
    Memory.byteAt_of_byte? stubbed.opcode
  have low : p.memory.byteAt (p.core.registers.pc + 1) = 0x05 :=
    Memory.byteAt_of_byte? stubbed.low
  have high : p.memory.byteAt (p.core.registers.pc + 2) = 0x00 :=
    Memory.byteAt_of_byte? stubbed.high
  have console : CallsAt ⟨p.core, p.memory, ports⟩ 0x05 0x00 := ⟨opcode, low, high⟩
  have ongoing : ¬ CallsAt ⟨p.core, p.memory, ports⟩ 0x00 0x00 := by
    rintro ⟨-, zero, -⟩
    cases low.symm.trans zero
  have inspected : inspected ⟨p.core, p.memory, ports⟩ =
      [p.core.registers.pc, p.core.registers.pc + 1, p.core.registers.pc + 2] := if_pos opcode
  rw [Session.decide_eq, if_neg away, inspected,
    Memory.firstOutside?_eq_none_iff.mpr stubbed.operand, if_neg ongoing, if_pos console]

theorem Session.serveConsole_skips (served : s.serveConsole textOffset = .ok t) :
    t.cpu.processor = s.cpu.processor.jump (s.core.registers.pc + 3) ∧ t.cycles = s.cycles := by
  simp only [serveConsole] at served
  cases printed : consoleOutput s.core.registers s.memory textOffset with
  | error failure =>
      rw [printed] at served
      cases served
  | ok text =>
      rw [printed] at served
      cases served
      cases ConsoleFunction.ofNumber s.core.registers.c <;> exact ⟨rfl, rfl⟩

/-- Executing a console call on a console that returns at once takes two steps and 27 cycles. A
session that finds the same core and memory intercepts the call instead, and if it can serve it,
it goes on at the same PC with nothing else changed and no cycle counted. -/
theorem executed_call_differs_by_traces (stubbed : p.CallsStub) :
    ∃ entered called, p.step = (.ok 17, entered) ∧ entered.step = (.ok 10, called) ∧
      (p.jump (p.core.registers.pc + 3)).DiffersByCall called ∧
      ∀ s : Session, s.core = p.core → s.memory = p.memory →
        (¬ (p.core.registers.pc = 0 ∧ 1 < s.steps) → s.decide = .ok .console) ∧
        ∀ textOffset t, s.serveConsole textOffset = .ok t →
          t.core = (p.jump (p.core.registers.pc + 3)).core ∧ t.memory = p.memory ∧
            t.cpu.processor.ports = s.cpu.processor.ports ∧ t.cycles = s.cycles := by
  refine ⟨_, _, stubbed.step_call, stubbed.step_ret, stubbed.differsByCall, ?_⟩
  intro s core memory
  refine ⟨Session.decide_of_callsStub stubbed core memory, fun textOffset t served => ?_⟩
  obtain ⟨skipped, uncounted⟩ := Session.serveConsole_skips served
  have moved : (s.cpu.processor.jump (s.core.registers.pc + 3)).core =
      (p.jump (p.core.registers.pc + 3)).core :=
    congrArg (fun core : Core =>
      { core with registers := { core.registers with pc := core.registers.pc + 3 } }) core
  rw [Session.core, Session.memory, skipped]
  exact ⟨moved, memory, rfl, uncounted⟩

/-- A call for a character, on a stack that lies over the call itself. -/
def callUnderStack : Processor Unit where
  core := { Core.cleared with
    registers := { Registers.cleared with c := 2, e := 0x41, sp := 0x0002 } }
  memory := ⟨⟨#[0xCD, 0x05, 0x00, 0x00, 0x00, 0xC9]⟩⟩
  ports := ⟨(), none, none⟩

/-- The return address takes the place of the call, and both ways go on behind it. -/
theorem executed_call_differs_by_traces_overwriting :
    ∃ entered called t, callUnderStack.step = (.ok 17, entered) ∧
      entered.step = (.ok 10, called) ∧ called.core.registers.pc = 0x0003 ∧
      called.peek 0x0001 = 0x00 ∧ called.peek 0x0000 = 0x03 ∧
      Session.serveConsole ⟨⟨callUnderStack, .opened none, Monitor.silent⟩, "", 1, 0⟩ 3 = .ok t ∧
      t.core.registers.pc = 0x0003 ∧ t.memory = callUnderStack.memory ∧ t.cycles = 0 := by
  have stubbed : callUnderStack.CallsStub := by
    constructor
    case room =>
      intro address among
      obtain rfl | rfl : address = 0x0000 ∨ address = 0x0001 := by
        simpa [callUnderStack] using among
      · decide
      · decide
    all_goals decide
  obtain ⟨entered, called, call, ret, differs, skipped⟩ := executed_call_differs_by_traces stubbed
  obtain ⟨t, served⟩ : ∃ t, Session.serveConsole
      ⟨⟨callUnderStack, .opened none, Monitor.silent⟩, "", 1, 0⟩ 3 = .ok t := ⟨_, rfl⟩
  obtain ⟨core, memory, -, cycles⟩ := (skipped _ rfl rfl).2 3 t served
  exact ⟨entered, called, t, call, ret, differs.pc, differs.pushed.1, differs.pushed.2, served,
    congrArg (fun core : Core => core.registers.pc) core, memory, cycles⟩

end Diagnostic

end Intel8080
