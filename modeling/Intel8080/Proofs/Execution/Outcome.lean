import Intel8080.Processor.Execute
import Intel8080.Proofs.Manual.Meaning

/-!
# Outcomes

A computation on a processor has a simple outcome when it either stops with a known
fault and leaves the processor alone, or gives a known result and a known processor.
Outcomes compose: the fault of a sequence is the first fault of its parts. Every
operation has a simple outcome, namely its first fault or else its meaning.
-/

namespace Intel8080

def Operand.addresses (r : Registers) : Operand → List UInt16
  | .register _ => []
  | .memory => [Manual.pair r .hl]

namespace Processor

variable {σ : Type}

def outcome (p : Processor σ) (fault? : Option Fault) (value : α) (after : Processor σ) :
    EStateM.Result Fault (Processor σ) α :=
  match fault? with
  | some fault => .error fault p
  | none => .ok value after

/-- The fault of touching addresses in order. -/
def accessFault? (p : Processor σ) (addresses : List UInt16) : Option Fault :=
  (p.memory.firstOutside? addresses).map .outOfBounds

theorem accessFault?_append (p : Processor σ) (first second : List UInt16) :
    p.accessFault? (first ++ second) = (p.accessFault? first).or (p.accessFault? second) := by
  rw [accessFault?, Memory.firstOutside?_append, Option.map_or]
  rfl

theorem accessFault?_cons (p : Processor σ) (address : UInt16) (rest : List UInt16) :
    p.accessFault? (address :: rest) = (p.accessFault? [address]).or (p.accessFault? rest) :=
  p.accessFault?_append [address] rest

end Processor

namespace Exec

open Processor

variable {σ : Type} {p q r : Processor σ} {a : α} {b : β}

/-! ## Sequences -/

theorem bind_of_ok {x : Exec σ α} {f : α → Exec σ β} (h : x p = .ok a q) :
    (x >>= f) p = f a q := by
  simp only [bind, EStateM.bind, h]

theorem bind_of_error {x : Exec σ α} {f : α → Exec σ β} {fault : Fault}
    (h : x p = .error fault q) : (x >>= f) p = .error fault q := by
  simp only [bind, EStateM.bind, h]

theorem outcome_bind {x : Exec σ α} {f : α → Exec σ β} {first second : Option Fault}
    (hx : x p = p.outcome first a p) (hf : f a p = p.outcome second b q) :
    (x >>= f) p = p.outcome (first.or second) b q := by
  simp only [bind, EStateM.bind, hx]
  cases first with
  | none => exact hf
  | some fault => rfl

/-- What follows the last chance to fail cannot change the fault. -/
theorem outcome_bind_ok {x : Exec σ α} {f : α → Exec σ β} {fault? : Option Fault}
    (hx : x p = p.outcome fault? a q) (hf : f a q = .ok b r) :
    (x >>= f) p = p.outcome fault? b r := by
  simp only [bind, EStateM.bind, hx]
  cases fault? with
  | none => exact hf
  | some fault => rfl

/-! ## Memory -/

theorem readByte_eq (address : UInt16) (p : Processor σ) :
    readByte address p = p.outcome (p.accessFault? [address]) (p.peek address) p := by
  rw [readByte, Memory.read_eq, accessFault?]
  cases p.memory.firstOutside? [address] <;> rfl

theorem checkAddress_eq (address : UInt16) (p : Processor σ) :
    checkAddress address p = p.outcome (p.accessFault? [address]) () p := by
  rw [checkAddress, Memory.check_eq, accessFault?]
  cases p.memory.firstOutside? [address] <;> rfl

theorem writeByte_eq (address : UInt16) (value : UInt8) (p : Processor σ) :
    writeByte address value p =
      p.outcome (p.accessFault? [address]) () (p.poke address value) :=
  outcome_bind_ok (checkAddress_eq address p) rfl

theorem readWord_eq (address : UInt16) (p : Processor σ) :
    readWord address p =
      p.outcome (p.accessFault? [address, address + 1])
        (joinBytes (p.peek (address + 1)) (p.peek address)) p := by
  rw [accessFault?_cons]
  exact outcome_bind (readByte_eq address p) (outcome_bind_ok (readByte_eq _ p) rfl)

theorem writeWord_eq (address word : UInt16) (p : Processor σ) :
    writeWord address word p =
      p.outcome (p.accessFault? [address, address + 1]) ()
        ((p.poke address (lowByte word)).poke (address + 1) (highByte word)) := by
  rw [accessFault?_cons]
  exact outcome_bind (checkAddress_eq address p) (outcome_bind_ok (checkAddress_eq _ p) rfl)

/-! ## The stack -/

theorem push_eq (word : UInt16) (p : Processor σ) :
    push word p =
      p.outcome (p.accessFault? [p.core.registers.sp - 2, p.core.registers.sp - 1]) ()
        (p.pushBytes (highByte word) (lowByte word)) := by
  have next : p.core.registers.sp - 2 + 1 = p.core.registers.sp - 1 := by grind
  have apart : p.core.registers.sp - 1 ≠ p.core.registers.sp - 2 := by grind
  have stored := writeWord_eq (p.core.registers.sp - 2) word p
  rw [next] at stored
  have order : (p.poke (p.core.registers.sp - 2) (lowByte word)).poke (p.core.registers.sp - 1)
      (highByte word) = (p.poke (p.core.registers.sp - 1) (highByte word)).poke
      (p.core.registers.sp - 2) (lowByte word) := by
    simp only [poke, Manual.withByte_eq_store, Memory.store_comm _ _ _ apart]
  rw [order] at stored
  exact (bind_of_ok rfl).trans (outcome_bind_ok stored rfl)

theorem pop_eq (p : Processor σ) :
    pop p =
      p.outcome (p.accessFault? [p.core.registers.sp, p.core.registers.sp + 1])
        (joinBytes (p.peek (p.core.registers.sp + 1)) (p.peek p.core.registers.sp))
        (p.setSP (p.core.registers.sp + 2)) :=
  (bind_of_ok rfl).trans (outcome_bind_ok (readWord_eq _ p) rfl)

theorem call_eq (target : UInt16) (p : Processor σ) :
    call target p =
      p.outcome (p.accessFault? [p.core.registers.sp - 2, p.core.registers.sp - 1]) ()
        (p.enter target) := by
  rw [enter, Manual.upper_eq_highByte, Manual.lower_eq_lowByte]
  exact (bind_of_ok rfl).trans (outcome_bind_ok (push_eq _ p) rfl)

theorem ret_eq (p : Processor σ) :
    Exec.ret p =
      p.outcome (p.accessFault? [p.core.registers.sp, p.core.registers.sp + 1]) () p.leave := by
  rw [leave, Manual.word_eq_joinBytes]
  exact outcome_bind_ok (pop_eq p) rfl

theorem readStackPair_eq (source : StackPair) (p : Processor σ) :
    readStackPair source p =
      .ok (joinBytes (p.stackBytes source).1 (p.stackBytes source).2) p := by
  cases source with
  | psw =>
      rw [stackBytes, Manual.status_eq_pack]
      rfl
  | _ => rfl

theorem writeStackPair_eq (word : UInt16) (target : StackPair) (p : Processor σ) :
    writeStackPair word target p =
      .ok () (p.setStackBytes (highByte word) (lowByte word) target) := by
  cases target <;> rfl

/-! ## Operands -/

theorem readOperand_eq (source : Operand) (p : Processor σ) :
    readOperand source p =
      p.outcome (p.accessFault? (source.addresses p.core.registers)) (p.operand source) p := by
  cases source with
  | register r =>
      rw [operand, Manual.register_eq_get]
      rfl
  | memory =>
      rw [operand, Operand.addresses, Manual.pair_eq_getPair]
      exact (bind_of_ok rfl).trans (readByte_eq _ p)

theorem writeOperand_eq (value : UInt8) (target : Operand) (p : Processor σ) :
    writeOperand value target p =
      p.outcome (p.accessFault? (target.addresses p.core.registers)) ()
        (p.setOperand value target) := by
  cases target with
  | register r =>
      rw [setOperand, Manual.withRegister_eq_set]
      rfl
  | memory =>
      rw [setOperand, Operand.addresses, Manual.pair_eq_getPair]
      exact (bind_of_ok rfl).trans (writeByte_eq _ value p)

theorem adjustOperand_eq (target : Operand) (f : Flags → UInt8 → AluResult) (p : Processor σ) :
    adjustOperand target f p =
      p.outcome (p.accessFault? (target.addresses p.core.registers)) ()
        (p.setResult (f p.core.flags (p.operand target)) target) := by
  have read := readOperand_eq target p
  let result := f p.core.flags (p.operand target)
  have written := writeOperand_eq result.value target (p.mapFlags fun _ => result.flags)
  cases faulty : p.accessFault? (target.addresses p.core.registers) with
  | some fault =>
      rw [faulty] at read
      simp only [adjustOperand, bind, EStateM.bind, read, outcome]
  | none =>
      have again : (p.mapFlags fun _ => result.flags).accessFault?
          (target.addresses p.core.registers) = none := faulty
      rw [faulty] at read
      rw [show (p.mapFlags fun _ => result.flags).core.registers = p.core.registers from rfl,
        again] at written
      refine (bind_of_ok read).trans ((bind_of_ok rfl).trans ((bind_of_ok rfl).trans ?_))
      refine written.trans ?_
      cases target <;> rfl

theorem exchangeStackTop_eq (p : Processor σ) :
    exchangeStackTop p =
      p.outcome (p.accessFault? [p.core.registers.sp, p.core.registers.sp + 1]) ()
        (Operation.xthl.meaning p) := by
  have exchanged := outcome_bind (f := fun top => do
      writeWord p.core.registers.sp p.core.registers.hl
      modifyRegisters fun r => r.setHL top)
    (readWord_eq p.core.registers.sp p)
    (outcome_bind_ok (writeWord_eq p.core.registers.sp p.core.registers.hl p) rfl)
  rw [Option.or_self] at exchanged
  refine (bind_of_ok rfl).trans (exchanged.trans ?_)
  congr 1
  simp [Operation.meaning, setStackBytes, mapRegisters, Registers.setHL, Registers.hl, poke]

theorem onlyIf_eq {condition : Condition} {action : Exec σ Unit} {fault? : Option Fault}
    (h : action p = p.outcome fault? () q) :
    onlyIf condition action p =
      p.outcome (if condition.holds p.core.flags then fault? else none) ()
        (if condition.holds p.core.flags then q else p) := by
  refine (bind_of_ok rfl).trans ?_
  cases holds : condition.holds p.core.flags with
  | true => exact h
  | false => rfl

end Exec

end Intel8080
