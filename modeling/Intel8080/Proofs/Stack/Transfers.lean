import Intel8080.Proofs.Interrupts.Acceptance
import Intel8080.Proofs.Stack.LastInFirstOut

/-!
# Words that pass through the stack

PUSH and POP name their word by the same code, so a word can be pushed from one place and popped
into another. The place that is not a pair of registers is the program status: the accumulator
over the flags, packed into a byte with three fixed bits. XTHL exchanges HL with the word on top
of the stack and undoes itself.
-/

namespace Intel8080

/-! ## Encodings -/

namespace StackPair

def code : StackPair → Nat
  | .bc => 0
  | .de => 1
  | .hl => 2
  | .psw => 3

def pushOpcode (pair : StackPair) : UInt8 :=
  UInt8.ofNat (0xC5 + 16 * pair.code)

def popOpcode (pair : StackPair) : UInt8 :=
  UInt8.ofNat (0xC1 + 16 * pair.code)

theorem decode_pushOpcode (pair : StackPair) :
    Operation.decode pair.pushOpcode = some (.push pair) := by
  cases pair <;> rfl

theorem decode_popOpcode (pair : StackPair) :
    Operation.decode pair.popOpcode = some (.pop pair) := by
  cases pair <;> rfl

theorem length_pushOpcode (pair : StackPair) : (Opcode.entry pair.pushOpcode).length = 1 := by
  cases pair <;> rfl

theorem length_popOpcode (pair : StackPair) : (Opcode.entry pair.popOpcode).length = 1 := by
  cases pair <;> rfl

end StackPair

set_option maxRecDepth 4096 in
/-- Unpacking a byte keeps its five flags; packing them sets bit 1 and clears bits 3 and 5. -/
theorem Manual.status_flagsOf (byte : UInt8) :
    status (flagsOf byte) = (byte &&& 0xD7) ||| 0x02 := by
  rw [status_eq_pack, flagsOf_eq_unpack]
  revert byte
  exact Manual.forall_byte (by decide)

namespace Processor

variable {σ : Type} {p q r : Processor σ} {source target : StackPair} {cost : Nat}

/-! ## Steps -/

theorem stackBytes_pastOpcode (p : Processor σ) (opcode : UInt8) (source : StackPair) :
    (p.pastOpcode opcode).stackBytes source = p.stackBytes source := by
  cases source <;> rfl

theorem step_push (fetching : p.core.acceptable = none)
    (held : p.memory.byte? p.core.registers.pc.toNat = some source.pushOpcode)
    (inside : p.Inside [p.core.registers.sp - 2, p.core.registers.sp - 1]) :
    p.step = (.ok 11, (p.pastOpcode source.pushOpcode).pushBytes (p.stackBytes source).1
      (p.stackBytes source).2) := by
  have reachable : (p.pastOpcode source.pushOpcode).accessFault?
      [p.core.registers.sp - 2, p.core.registers.sp - 1] = none :=
    accessFault?_eq_none_iff.mpr inside
  have pushed := (Readies.of_byte? fetching held source.length_pushOpcode).step
    source.decode_pushOpcode reachable
  rw [Operation.meaning, stackBytes_pastOpcode] at pushed
  exact pushed

theorem step_pop (fetching : p.core.acceptable = none)
    (held : p.memory.byte? p.core.registers.pc.toNat = some target.popOpcode)
    (inside : p.Inside [p.core.registers.sp, p.core.registers.sp + 1]) :
    p.step = (.ok 10,
      ((p.pastOpcode target.popOpcode).setSP (p.core.registers.sp + 2)).setStackBytes
        (p.peek (p.core.registers.sp + 1)) (p.peek p.core.registers.sp) target) :=
  (Readies.of_byte? fetching held target.length_popOpcode).step target.decode_popOpcode
    (accessFault?_eq_none_iff.mpr inside)

theorem inside_of_push (fetching : p.core.acceptable = none)
    (held : p.memory.byte? p.core.registers.pc.toNat = some source.pushOpcode)
    (stepped : p.step = (.ok cost, q)) :
    p.Inside [p.core.registers.sp - 2, p.core.registers.sp - 1] := by
  have readied : p.prepared.core.opcode = source.pushOpcode := by
    rw [prepared_of_fetching fetching]
    exact Memory.byteAt_of_byte? held
  obtain ⟨-, -, faultless⟩ := meaning_of_step stepped (readied ▸ source.decode_pushOpcode)
  have inside := inside_of_fault?_eq_none faultless
  rw [Operation.touched, p.prepared_registers.2] at inside
  rwa [Inside, prepared_memory] at inside

/-! ## From one place to another -/

/-- A place holds a high and a low byte after they have been popped into it. -/
def Received (r : Processor σ) (high low : UInt8) : StackPair → Prop
  | .bc => r.core.registers.b = high ∧ r.core.registers.c = low
  | .de => r.core.registers.d = high ∧ r.core.registers.e = low
  | .hl => r.core.registers.h = high ∧ r.core.registers.l = low
  | .psw => r.core.registers.a = high ∧
      r.core.flags.sign = low.toNat.testBit 7 ∧ r.core.flags.zero = low.toNat.testBit 6 ∧
      r.core.flags.auxCarry = low.toNat.testBit 4 ∧ r.core.flags.parity = low.toNat.testBit 2 ∧
      r.core.flags.carry = low.toNat.testBit 0

/-- The processor `r` is `p` after a word has been pushed from one place and popped into another:
nothing has changed but the place, the two bytes below SP, and what tells of the execution of two
instructions of one byte. -/
structure Transferred (p : Processor σ) (source target : StackPair) (r : Processor σ) : Prop where
  received : r.Received (p.stackBytes source).1 (p.stackBytes source).2 target
  registers : ∀ register, register ∉ target.registers →
    r.core.registers.get register = p.core.registers.get register
  flags : target ≠ .psw → r.core.flags = p.core.flags
  latches : r.core.registers.w = p.core.registers.w ∧ r.core.registers.z = p.core.registers.z
  sp : r.core.registers.sp = p.core.registers.sp
  pc : r.core.registers.pc = p.core.registers.pc + 2
  interrupts : r.core.interruptsEnabled = p.core.interruptsEnabled
  pending : r.core.pendingInterrupt = p.core.pendingInterrupt
  ports : r.ports = p.ports
  capacity : r.memory.capacity = p.memory.capacity
  memory : ∀ address,
    (p.core.registers.sp - 1).toNat ≠ address → (p.core.registers.sp - 2).toNat ≠ address →
      r.memory.byte? address = p.memory.byte? address

/-- The processor after two instructions of one byte, the second of which was `opcode`. -/
def pastTwo (p : Processor σ) (opcode : UInt8) (memory : Memory) : Processor σ :=
  { p with
    core := { p.core with
      registers := { p.core.registers with pc := p.core.registers.pc + 2 }
      opcode
      opcodeAddress := p.core.registers.pc + 1 }
    memory }

theorem setStackBytes_stackBytes (p : Processor σ) (place : StackPair) :
    p.setStackBytes (p.stackBytes place).1 (p.stackBytes place).2 place = p := by
  cases place with
  | psw =>
      simp only [stackBytes, setStackBytes, setA, mapRegisters, mapFlags, Manual.flagsOf_status]
  | _ => rfl

theorem stackBytes_pastTwo (p : Processor σ) (opcode : UInt8) (memory : Memory)
    (place : StackPair) : (p.pastTwo opcode memory).stackBytes place = p.stackBytes place := by
  cases place <;> rfl

theorem setStackBytes_pastTwo (p : Processor σ) (opcode : UInt8) (memory : Memory)
    (place : StackPair) :
    (p.pastTwo opcode memory).setStackBytes (p.stackBytes place).1 (p.stackBytes place).2 place =
      p.pastTwo opcode memory := by
  rw [← stackBytes_pastTwo p opcode memory, setStackBytes_stackBytes]

theorem received_setStackBytes (p : Processor σ) (high low : UInt8) (target : StackPair) :
    (p.setStackBytes high low target).Received high low target := by
  cases target with
  | psw => exact ⟨rfl, rfl, rfl, rfl, rfl, rfl⟩
  | _ => exact ⟨rfl, rfl⟩

/-- Popping takes the word that has just been pushed, into whichever place. -/
theorem pop_push (p : Processor σ) (source target : StackPair)
    (inside : p.Inside [p.core.registers.sp - 2, p.core.registers.sp - 1]) :
    let q := (p.pastOpcode source.pushOpcode).pushBytes (p.stackBytes source).1
      (p.stackBytes source).2
    ((q.pastOpcode target.popOpcode).setSP (q.core.registers.sp + 2)).setStackBytes
        (q.peek (q.core.registers.sp + 1)) (q.peek q.core.registers.sp) target =
      (p.pastTwo target.popOpcode q.memory).setStackBytes (p.stackBytes source).1
        (p.stackBytes source).2 target := by
  intro q
  obtain ⟨-, high, low⟩ := (p.pastOpcode source.pushOpcode).top_pushBytes (p.stackBytes source).1
    (p.stackBytes source).2 inside
  have sp : q.core.registers.sp + 2 = p.core.registers.sp := (sp_pushBytes _ _ _).2
  have pc : p.core.registers.pc + 1 + 1 = p.core.registers.pc + 2 := by grind
  have popped : (q.pastOpcode target.popOpcode).setSP p.core.registers.sp =
      p.pastTwo target.popOpcode q.memory := by
    simp only [q, pastTwo, ← pc, pastOpcode, pushBytes, setSP, mapRegisters, poke]
  rw [sp, high, low, popped]

theorem transferred_pop_push (p : Processor σ) (source target : StackPair) :
    p.Transferred source target
      ((p.pastTwo target.popOpcode ((p.pastOpcode source.pushOpcode).pushBytes
        (p.stackBytes source).1 (p.stackBytes source).2).memory).setStackBytes
          (p.stackBytes source).1 (p.stackBytes source).2 target) := by
  constructor
  case received => exact received_setStackBytes _ _ _ target
  case registers =>
    intro register other
    rw [← Manual.register_eq_get]
    exact register_setStackBytes_of_notMem _ _ _ other
  case flags =>
    intro pair
    cases target with
    | psw => exact absurd rfl pair
    | _ => rfl
  case capacity =>
    cases target <;> exact capacity_pushBytes (p.pastOpcode source.pushOpcode) _ _
  case memory =>
    intro address high low
    have kept := (p.pastOpcode source.pushOpcode).byte?_pushBytes (p.stackBytes source).1
      (p.stackBytes source).2 high low
    cases target <;> exact kept
  case latches => cases target <;> exact ⟨rfl, rfl⟩
  all_goals cases target <;> rfl

theorem push_then_pop (fetching : p.core.acceptable = none)
    (held : p.memory.byte? p.core.registers.pc.toNat = some source.pushOpcode)
    (stepped : p.step = (.ok cost, q))
    (next : q.memory.byte? (p.core.registers.pc + 1).toNat = some target.popOpcode) :
    cost = 11 ∧ ∃ r, q.step = (.ok 10, r) ∧ p.Transferred source target r ∧
      (source = target → r = p.pastTwo target.popOpcode r.memory) := by
  have inside := inside_of_push fetching held stepped
  have pushed := step_push fetching held inside
  rw [stepped] at pushed
  cases pushed
  obtain ⟨reachable, -⟩ := (p.pastOpcode source.pushOpcode).top_pushBytes (p.stackBytes source).1
    (p.stackBytes source).2 inside
  have popped := step_pop (by exact fetching) next reachable
  rw [p.pop_push source target inside] at popped
  refine ⟨rfl, _, popped, p.transferred_pop_push source target, fun same => ?_⟩
  subst same
  rw [setStackBytes_pastTwo]
  rfl

/-! ## The flags on the way -/

theorem pop_then_push {high low : UInt8} (fetching : p.core.acceptable = none)
    (held : p.memory.byte? p.core.registers.pc.toNat = some StackPair.psw.popOpcode)
    (next : p.memory.byte? (p.core.registers.pc + 1).toNat = some StackPair.psw.pushOpcode)
    (lower : p.memory.byte? p.core.registers.sp.toNat = some low)
    (upper : p.memory.byte? (p.core.registers.sp + 1).toNat = some high) :
    ∃ q r, p.step = (.ok 10, q) ∧ q.step = (.ok 11, r) ∧
      r.core.registers.sp = p.core.registers.sp ∧
      r.memory.byte? (p.core.registers.sp + 1).toNat = some high ∧
      r.memory.byte? p.core.registers.sp.toNat = some ((low &&& 0xD7) ||| 0x02) := by
  have inside : p.Inside [p.core.registers.sp, p.core.registers.sp + 1] := by
    simpa [Inside] using ⟨Memory.lt_of_byte? lower, Memory.lt_of_byte? upper⟩
  let q := ((p.pastOpcode StackPair.psw.popOpcode).setSP (p.core.registers.sp + 2)).setStackBytes
    high low .psw
  have popped : p.step = (.ok 10, q) := by
    have done := step_pop fetching held inside
    rwa [show p.peek p.core.registers.sp = low from Memory.byteAt_of_byte? lower,
      show p.peek (p.core.registers.sp + 1) = high from Memory.byteAt_of_byte? upper] at done
  have bottom : q.core.registers.sp - 2 = p.core.registers.sp := UInt16.add_sub_cancel ..
  have second : q.core.registers.sp - 1 = p.core.registers.sp + 1 := by
    change p.core.registers.sp + 2 - 1 = p.core.registers.sp + 1
    grind
  have room : q.Inside [q.core.registers.sp - 2, q.core.registers.sp - 1] := by
    rw [bottom, second]
    exact inside
  have pushed := step_push (p := q) fetching next room
  obtain ⟨reachable, stored, packed⟩ := (q.pastOpcode StackPair.psw.pushOpcode).top_pushBytes high
    (Manual.status (Manual.flagsOf low)) room
  refine ⟨q, _, popped, pushed, bottom, ?_, ?_⟩
  · have held := Memory.byte?_eq_byteAt
      (reachable _ (List.mem_cons_of_mem _ List.mem_cons_self))
    rw [← bottom]
    exact held.trans (congrArg some stored)
  · have held := Memory.byte?_eq_byteAt (reachable _ List.mem_cons_self)
    rw [← bottom, ← Manual.status_flagsOf]
    exact held.trans (congrArg some packed)

/-! ## Exchanging with the top of the stack -/

/-- XTHL undoes itself: the second exchange takes back the bytes that the first has stored. -/
theorem xthl_xthl (inside : p.Inside [p.core.registers.sp, p.core.registers.sp + 1]) :
    Operation.xthl.meaning (Operation.xthl.meaning p) = p := by
  let sp := p.core.registers.sp
  let q := Operation.xthl.meaning p
  have apart : sp + 1 ≠ sp := by grind
  have lower : q.peek sp = p.core.registers.l :=
    (Memory.byteAt_store_of_ne _ _ apart).trans (Memory.byteAt_store_self _ (inside _ (by simp)))
  have upper : q.peek (sp + 1) = p.core.registers.h := by
    refine Memory.byteAt_store_self _ ?_
    change _ < (p.memory.store _ _).capacity
    rw [Memory.capacity_store]
    exact inside _ (by simp)
  have memory : (q.memory.store sp (p.peek sp)).store (sp + 1) (p.peek (sp + 1)) = p.memory := by
    change (((p.memory.store sp p.core.registers.l).store (sp + 1) p.core.registers.h).store sp
      (p.memory.byteAt sp)).store (sp + 1) (p.memory.byteAt (sp + 1)) = p.memory
    rw [Memory.store_comm _ _ _ apart, Memory.store_store, Memory.store_store,
      Memory.store_byteAt, Memory.store_byteAt]
  have exchanged : Operation.xthl.meaning q =
      { p with
        core := { p.core with
          registers := { p.core.registers with h := q.peek (sp + 1), l := q.peek sp } }
        memory := (q.memory.store sp (p.peek sp)).store (sp + 1) (p.peek (sp + 1)) } := rfl
  rw [show Operation.xthl.meaning p = q from rfl, exchanged, lower, upper, memory]

theorem perform_xthl (inside : p.Inside [p.core.registers.sp, p.core.registers.sp + 1]) :
    Operation.xthl.perform p = .ok () (Operation.xthl.meaning p) := by
  rw [Operation.perform_eq, Operation.fault?, Operation.touched,
    accessFault?_eq_none_iff.mpr inside]
  rfl

theorem inside_xthl (inside : p.Inside [p.core.registers.sp, p.core.registers.sp + 1]) :
    (Operation.xthl.meaning p).Inside [p.core.registers.sp, p.core.registers.sp + 1] :=
  fun address among =>
    Nat.lt_of_lt_of_eq (inside address among) (Operation.capacity_meaning .xthl p).symm

/-- Words pass through the stack unchanged. PUSH and POP carry a word from any place into any
other, at 21 cycles together, and change nothing if the places are the same; POP PSW and PUSH PSW
put a word back but for the fixed bits of the flag byte; XTHL twice changes nothing. -/
theorem words_pass_through_stack :
    (∀ (p q : Processor σ) (source target : StackPair) (cost : Nat),
      p.core.acceptable = none →
      p.memory.byte? p.core.registers.pc.toNat = some source.pushOpcode →
      p.step = (.ok cost, q) →
      q.memory.byte? (p.core.registers.pc + 1).toNat = some target.popOpcode →
        ∃ more r, q.step = (.ok more, r) ∧ cost + more = 21 ∧ p.Transferred source target r ∧
          (source = target → r = p.pastTwo target.popOpcode r.memory)) ∧
    (∀ (p : Processor σ) (high low : UInt8),
      p.core.acceptable = none →
      p.memory.byte? p.core.registers.pc.toNat = some StackPair.psw.popOpcode →
      p.memory.byte? (p.core.registers.pc + 1).toNat = some StackPair.psw.pushOpcode →
      p.memory.byte? p.core.registers.sp.toNat = some low →
      p.memory.byte? (p.core.registers.sp + 1).toNat = some high →
        ∃ q r, p.step = (.ok 10, q) ∧ q.step = (.ok 11, r) ∧
          r.core.registers.sp = p.core.registers.sp ∧
          r.memory.byte? (p.core.registers.sp + 1).toNat = some high ∧
          r.memory.byte? p.core.registers.sp.toNat = some ((low &&& 0xD7) ||| 0x02)) ∧
    ∀ p : Processor σ, p.Inside [p.core.registers.sp, p.core.registers.sp + 1] →
      (do Operation.xthl.perform; Operation.xthl.perform) p = .ok () p := by
  refine ⟨?_, fun p high low => pop_then_push, ?_⟩
  · intro p q source target cost fetching held stepped next
    obtain ⟨rfl, r, popped, transferred, same⟩ := push_then_pop fetching held stepped next
    exact ⟨10, r, popped, rfl, transferred, same⟩
  · intro p inside
    have again := perform_xthl (p := Operation.xthl.meaning p) (inside_xthl inside)
    rw [xthl_xthl inside] at again
    exact (Exec.bind_of_ok (perform_xthl inside)).trans again

def betweenWords (first second : UInt8) : Processor Unit where
  core := { Core.cleared with
    registers := { Registers.cleared with a := 0x12, h := 0x34, sp := 0x0006 }
    flags := { Flags.cleared with carry := true } }
  memory := ⟨⟨#[first, second, 0x00, 0x00, 0x00, 0x00, 0x28, 0x99]⟩⟩
  ports := ⟨(), none, none⟩

/-- The flag byte of PUSH PSW ends up in C, the byte 28 comes back as 02, and two exchanges
leave everything as it was. -/
theorem words_pass_through_stack_betweenWords :
    (∃ r, (betweenWords 0xF5 0xC1).step.2.step = (.ok 10, r) ∧
        r.core.registers.b = 0x12 ∧ r.core.registers.c = 0x03) ∧
      (∃ q r, (betweenWords 0xF1 0xF5).step = (.ok 10, q) ∧ q.step = (.ok 11, r) ∧
        r.memory.byte? 7 = some 0x99 ∧ r.memory.byte? 6 = some 0x02) ∧
      (do Operation.xthl.perform; Operation.xthl.perform) (betweenWords 0xE3 0xE3) =
        .ok () (betweenWords 0xE3 0xE3) := by
  obtain ⟨transfers, packs, exchanges⟩ := words_pass_through_stack (σ := Unit)
  refine ⟨?_, ?_, ?_⟩
  · obtain ⟨more, r, popped, paid, transferred, -⟩ := transfers (betweenWords 0xF5 0xC1)
      (betweenWords 0xF5 0xC1).step.2 .psw .bc 11 rfl rfl rfl rfl
    obtain rfl : more = 10 := by omega
    exact ⟨r, popped, transferred.received⟩
  · obtain ⟨q, r, popped, pushed, -, high, low⟩ :=
      packs (betweenWords 0xF1 0xF5) 0x99 0x28 rfl rfl rfl rfl rfl
    exact ⟨q, r, popped, pushed, high, low⟩
  · have inside : (betweenWords 0xE3 0xE3).Inside [6, 7] := by
      intro address among
      obtain rfl | rfl : address = 6 ∨ address = 7 := by simpa using among
      all_goals decide
    exact exchanges _ inside

end Processor

end Intel8080
