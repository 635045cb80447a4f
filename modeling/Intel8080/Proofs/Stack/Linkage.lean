import Intel8080.Proofs.Interrupts.Acceptance
import Intel8080.Proofs.Stack.LastInFirstOut

/-!
# Subroutine and interrupt linkage

A subroutine is entered by a call, by a conditional call whose condition holds, by a restart,
or by an interrupt that puts a restart on the bus. Each pushes the address at which the program
is to go on and continues at its target. A return at the target, conditional or not, takes that
address back, so that the program goes on as if nothing had come between, but for the two bytes
below SP.
-/

namespace Intel8080

/-! ## Encodings -/

def Opcode.call : UInt8 := 0xCD

def Opcode.ret : UInt8 := 0xC9

def restartOpcode (n : Fin 8) : UInt8 :=
  Opcode.rst (UInt8.ofNat n.val)

theorem decode_restartOpcode (n : Fin 8) :
    Operation.decode (restartOpcode n) = some (.rst n) := by
  revert n
  decide +kernel

theorem length_restartOpcode (n : Fin 8) : (Opcode.entry (restartOpcode n)).length = 1 := by
  revert n
  decide +kernel

namespace Condition

def code : Condition → Nat
  | .notZero => 0
  | .zero => 1
  | .notCarry => 2
  | .carry => 3
  | .parityOdd => 4
  | .parityEven => 5
  | .plus => 6
  | .minus => 7

def callOpcode (condition : Condition) : UInt8 :=
  UInt8.ofNat (0xC4 + 8 * condition.code)

def returnOpcode (condition : Condition) : UInt8 :=
  UInt8.ofNat (0xC0 + 8 * condition.code)

theorem decode_callOpcode (condition : Condition) :
    Operation.decode condition.callOpcode = some (.ccc condition) := by
  cases condition <;> rfl

theorem length_callOpcode (condition : Condition) :
    (Opcode.entry condition.callOpcode).length = 3 := by
  cases condition <;> rfl

theorem decode_returnOpcode (condition : Condition) :
    Operation.decode condition.returnOpcode = some (.rcc condition) := by
  cases condition <;> rfl

theorem length_returnOpcode (condition : Condition) :
    (Opcode.entry condition.returnOpcode).length = 1 := by
  cases condition <;> rfl

end Condition

namespace Processor

variable {σ : Type} {p q r : Processor σ} {target back : UInt16} {opcode : UInt8}
  {cost price : Nat}

/-! ## Entering -/

def operandWord (p : Processor σ) : UInt16 :=
  joinBytes (p.peek (p.core.registers.pc + 2)) (p.peek (p.core.registers.pc + 1))

/-- The ways into a subroutine, with the address where it starts, the address to return to and
the cost of entering. Accepting an interrupt does not move PC. -/
inductive Enters (p : Processor σ) : UInt16 → UInt16 → Nat → Prop where
  | call (fetching : p.core.acceptable = none)
      (held : p.memory.byte? p.core.registers.pc.toNat = some Opcode.call) :
      p.Enters p.operandWord (p.core.registers.pc + 3) 17
  | callIf (condition : Condition) (fetching : p.core.acceptable = none)
      (held : p.memory.byte? p.core.registers.pc.toNat = some condition.callOpcode)
      (taken : condition.holds p.core.flags = true) :
      p.Enters p.operandWord (p.core.registers.pc + 3) 17
  | restart (n : Fin 8) (fetching : p.core.acceptable = none)
      (held : p.memory.byte? p.core.registers.pc.toNat = some (restartOpcode n)) :
      p.Enters (UInt16.ofNat (8 * n.val)) (p.core.registers.pc + 1) 11
  | interrupt (n : Fin 8) (accepted : p.core.acceptable = some (restartOpcode n)) :
      p.Enters (UInt16.ofNat (8 * n.val)) p.core.registers.pc 11

/-- The opcode in the core enters a subroutine at `target`, at a cost. -/
def IsEntry (p : Processor σ) (target : UInt16) (cost : Nat) : Prop :=
  ∃ operation, Operation.decode p.core.opcode = some operation ∧
    operation.duration p.core.flags = cost ∧ operation.meaning p = p.enter target ∧
    operation.touched p.core = [p.core.registers.sp - 2, p.core.registers.sp - 1]

theorem isEntry_call (opcode : p.core.opcode = Opcode.call) :
    p.IsEntry (Manual.operandWord p.core.registers) 17 :=
  ⟨.call, by rw [opcode]; rfl, rfl, rfl, rfl⟩

theorem isEntry_callIf {condition : Condition} (opcode : p.core.opcode = condition.callOpcode)
    (taken : condition.holds p.core.flags = true) :
    p.IsEntry (Manual.operandWord p.core.registers) 17 := by
  rw [← Manual.met_eq_holds] at taken
  exact ⟨.ccc condition, by rw [opcode, condition.decode_callOpcode], if_pos taken, if_pos taken,
    if_pos taken⟩

theorem isEntry_restart {n : Fin 8} (opcode : p.core.opcode = restartOpcode n) :
    p.IsEntry (UInt16.ofNat (8 * n.val)) 11 :=
  ⟨.rst n, by rw [opcode, decode_restartOpcode], rfl, rfl, rfl⟩

theorem prepared_of_byte? (fetching : p.core.acceptable = none)
    (held : p.memory.byte? p.core.registers.pc.toNat = some opcode) :
    p.prepared.core.opcode = opcode ∧
      p.prepared.core.registers.pc =
        p.core.registers.pc + UInt16.ofNat (Opcode.entry opcode).length ∧
      ((Opcode.entry opcode).length = 3 →
        Manual.operandWord p.prepared.core.registers = p.operandWord) := by
  obtain rfl : p.peek p.core.registers.pc = opcode := Memory.byteAt_of_byte? held
  rw [prepared_of_fetching fetching]
  refine ⟨rfl, rfl, fun length => ?_⟩
  rw [Manual.operandWord, Manual.word_eq_joinBytes]
  simp only [fetched, fetchedCore, instructionLength, length]
  rfl

theorem Enters.isEntry (enters : p.Enters target back cost) :
    p.prepared.IsEntry target cost ∧ p.prepared.core.registers.pc = back := by
  cases enters with
  | call fetching held =>
      obtain ⟨opcode, next, operand⟩ := prepared_of_byte? fetching held
      rw [← operand rfl]
      exact ⟨isEntry_call opcode, next⟩
  | callIf condition fetching held taken =>
      obtain ⟨opcode, next, operand⟩ := prepared_of_byte? fetching held
      rw [condition.length_callOpcode] at next
      rw [← operand condition.length_callOpcode]
      exact ⟨isEntry_callIf opcode (by rwa [prepared_flags]), next⟩
  | restart n fetching held =>
      obtain ⟨opcode, next, -⟩ := prepared_of_byte? fetching held
      rw [length_restartOpcode] at next
      exact ⟨isEntry_restart opcode, next⟩
  | interrupt n accepted =>
      rw [prepared_of_acceptable accepted]
      exact ⟨isEntry_restart rfl, rfl⟩

theorem Enters.step (enters : p.Enters target back cost) (stepped : p.step = (.ok price, q)) :
    price = cost ∧ q = p.prepared.enter target ∧ p.prepared.core.registers.pc = back ∧
      p.prepared.Inside [p.prepared.core.registers.sp - 2, p.prepared.core.registers.sp - 1] := by
  obtain ⟨⟨operation, decoded, duration, meaning, touched⟩, next⟩ := enters.isEntry
  obtain ⟨paid, rfl, faultless⟩ := meaning_of_step stepped decoded
  rw [prepared_flags] at duration
  have inside := inside_of_fault?_eq_none faultless
  rw [touched] at inside
  exact ⟨paid.trans duration, meaning, next, inside⟩

/-! ## Leaving -/

/-- The ways out of a subroutine under given flags, with their cost. -/
inductive Leaves (flags : Flags) : UInt8 → Nat → Prop where
  | ret : Leaves flags Opcode.ret 10
  | retIf (condition : Condition) (taken : condition.holds flags = true) :
      Leaves flags condition.returnOpcode 11

theorem Leaves.step (leaves : Leaves p.core.flags opcode cost)
    (fetching : p.core.acceptable = none)
    (held : p.memory.byte? p.core.registers.pc.toNat = some opcode)
    (inside : p.Inside [p.core.registers.sp, p.core.registers.sp + 1]) :
    p.step = (.ok cost, (p.pastOpcode opcode).leave) := by
  have reachable : (p.pastOpcode opcode).accessFault?
      [p.core.registers.sp, p.core.registers.sp + 1] = none :=
    accessFault?_eq_none_iff.mpr inside
  cases leaves with
  | ret => exact (Readies.of_byte? fetching held rfl).step rfl reachable
  | retIf condition taken =>
      rw [← Manual.met_eq_holds] at taken
      have touched : (Operation.rcc condition).touched (p.pastOpcode condition.returnOpcode).core =
          [p.core.registers.sp, p.core.registers.sp + 1] := if_pos taken
      have duration : (Operation.rcc condition).duration p.core.flags = 11 := if_pos taken
      have meaning : (Operation.rcc condition).meaning (p.pastOpcode condition.returnOpcode) =
          (p.pastOpcode condition.returnOpcode).leave := if_pos taken
      have readies := Readies.of_byte? fetching held condition.length_returnOpcode
      have faultless : (Operation.rcc condition).fault? (p.pastOpcode condition.returnOpcode) =
          none := by
        rw [Operation.fault?, touched, reachable]
        rfl
      rw [readies.step condition.decode_returnOpcode faultless, meaning]
      exact congrArg (fun cost => (Except.ok cost, _)) duration

/-! ## Entering and leaving -/

/-- Returning takes back what entering has pushed: only the bytes below SP, and the record of
the opcode that has been executed, tell that the subroutine has been entered. -/
theorem leave_enter (p : Processor σ) (target : UInt16) (opcode : UInt8)
    (inside : p.Inside [p.core.registers.sp - 2, p.core.registers.sp - 1]) :
    ((p.enter target).pastOpcode opcode).leave =
      { p with
        core := { p.core with opcode, opcodeAddress := target }
        memory := (p.enter target).memory } := by
  obtain ⟨-, high, low⟩ := p.top_pushBytes (Manual.upper p.core.registers.pc)
    (Manual.lower p.core.registers.pc) inside
  have popped : Manual.word ((p.enter target).peek ((p.enter target).core.registers.sp + 1))
      ((p.enter target).peek (p.enter target).core.registers.sp) = p.core.registers.pc :=
    (congrArg₂ Manual.word high low).trans (Manual.word_upper_lower _)
  have left : ((p.enter target).pastOpcode opcode).leave =
      (((p.enter target).pastOpcode opcode).goTo
        (Manual.word ((p.enter target).peek ((p.enter target).core.registers.sp + 1))
          ((p.enter target).peek (p.enter target).core.registers.sp))).setSP
            ((p.enter target).core.registers.sp + 2) := rfl
  have top : (p.enter target).core.registers.sp + 2 = p.core.registers.sp :=
    (p.sp_pushBytes (Manual.upper p.core.registers.pc) (Manual.lower p.core.registers.pc)).2
  rw [left, popped, top]
  simp only [setSP, goTo, mapRegisters, pastOpcode, enter, pushBytes, poke]

/-- The program goes on as the processor `p` left it: at the address to return to, with its SP,
registers, flags and INTE, and with its memory but for two bytes below SP. -/
structure Resumes (p : Processor σ) (back : UInt16) (r : Processor σ) : Prop where
  pc : r.core.registers.pc = back
  sp : r.core.registers.sp = p.core.registers.sp
  registers : ∀ register, r.core.registers.get register = p.core.registers.get register
  flags : r.core.flags = p.core.flags
  interrupts : r.core.interruptsEnabled = p.core.interruptsEnabled
  ports : r.ports = p.ports
  capacity : r.memory.capacity = p.memory.capacity
  memory : ∀ address,
    (p.core.registers.sp - 1).toNat ≠ address → (p.core.registers.sp - 2).toNat ≠ address →
      r.memory.byte? address = p.memory.byte? address

theorem resumes_leave (p : Processor σ) (target : UInt16) (opcode : UInt8)
    (inside : p.prepared.Inside
      [p.prepared.core.registers.sp - 2, p.prepared.core.registers.sp - 1]) :
    p.Resumes p.prepared.core.registers.pc
      ((p.prepared.enter target).pastOpcode opcode).leave := by
  obtain ⟨registers, sp⟩ := p.prepared_registers
  rw [leave_enter p.prepared target opcode inside]
  constructor
  case pc => rfl
  case sp => exact sp
  case registers => exact registers
  case flags => exact p.prepared_flags
  case interrupts => exact p.prepared_interruptsEnabled
  case ports => exact p.prepared_ports
  case capacity =>
    rw [← p.prepared_memory]
    exact p.prepared.capacity_pushBytes _ _
  case memory =>
    intro address high low
    rw [← sp] at high low
    rw [← p.prepared_memory]
    exact p.prepared.byte?_pushBytes _ _ high low

/-- A subroutine that returns at once is not noticed by the program that has entered it, by
whichever way, and neither by the program that an interrupt has entered it from. -/
theorem subroutine_returns (enters : p.Enters target back cost)
    (stepped : p.step = (.ok price, q)) :
    price = cost ∧ q.core.registers.pc = target ∧
      ∀ opcode cost, q.memory.byte? target.toNat = some opcode →
        Leaves q.core.flags opcode cost → q.core.acceptable = none →
          ∃ r, q.step = (.ok cost, r) ∧ p.Resumes back r := by
  obtain ⟨paid, rfl, rfl, inside⟩ := enters.step stepped
  refine ⟨paid, rfl, fun opcode cost held leaves fetching => ?_⟩
  obtain ⟨reachable, -⟩ := p.prepared.top_pushBytes
    (Manual.upper p.prepared.core.registers.pc) (Manual.lower p.prepared.core.registers.pc) inside
  exact ⟨_, leaves.step fetching held reachable, p.resumes_leave target opcode inside⟩

/-- A NOP at 0000 with RST 1 waiting, and RNZ at the address where RST 1 enters. -/
def interrupted : Processor Unit where
  core := { Core.cleared with
    registers := { Registers.cleared with b := 0x55, sp := 0x0010 }
    interruptsEnabled := true
    pendingInterrupt := some 0xCF }
  memory := ⟨⟨#[0, 0, 0, 0, 0, 0, 0, 0, 0xC0, 0, 0, 0, 0, 0, 0, 0]⟩⟩
  ports := ⟨(), none, none⟩

theorem subroutine_returns_interrupted :
    interrupted.step.1 = .ok 11 ∧ interrupted.step.2.core.registers.pc = 0x0008 ∧
      ∃ r, interrupted.step.2.step = (.ok 11, r) ∧ interrupted.Resumes 0x0000 r := by
  obtain ⟨-, entered, returns⟩ := subroutine_returns (p := interrupted)
    (.interrupt 1 rfl) (show interrupted.step = (.ok 11, interrupted.step.2) from rfl)
  exact ⟨rfl, entered, returns _ _ rfl (.retIf .notZero rfl) rfl⟩

end Processor

end Intel8080
