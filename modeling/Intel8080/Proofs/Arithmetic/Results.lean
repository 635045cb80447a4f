import Intel8080.Proofs.Execution.Step

/-!
# Results and flags

What the arithmetic of the processor comes to in integers. A result is exact before it is cut
to a byte; what the cut takes away is told by carry, the same for the low halves by auxiliary
carry, and sign, zero and parity tell about the byte that is left. Where the operand comes
from, a register, memory or the instruction itself, makes no difference.
-/

namespace Intel8080

/-! ## The integers behind a result -/

/-- Sign, zero and parity are those of a byte. -/
structure Flags.Shows (flags : Flags) (result : UInt8) : Prop where
  sign : flags.sign = true ↔ 128 ≤ result.toNat
  zero : flags.zero = true ↔ result = 0
  parity : flags.parity = true ↔ 2 ∣ Manual.ones result

namespace AluOp

/-- The carry or borrow that goes in. -/
def carryIn (flags : Flags) : AluOp → Nat
  | .adc | .sbb => flags.carry.toNat
  | _ => 0

/-- The result before it is cut to a byte. -/
def exactResult (carry a value : Nat) : AluOp → Int
  | .add | .adc => a + value + carry
  | .sub | .sbb | .cmp => a - value - carry
  | .ana => (a &&& value : Nat)
  | .xra => (a ^^^ value : Nat)
  | .ora => (a ||| value : Nat)

def result (op : AluOp) (flags : Flags) (a value : UInt8) : UInt8 :=
  UInt8.ofInt (op.exactResult (op.carryIn flags) a.toNat value.toNat)

/-- A sum reaches the limit, or a subtrahend with its borrow is too large. Bitwise results
carry nothing. -/
def Carries (limit carry a value : Nat) : AluOp → Prop
  | .add | .adc => limit ≤ a + value + carry
  | .sub | .sbb | .cmp => a < value + carry
  | .ana | .xra | .ora => False

instance decidableCarries (limit carry a value : Nat) :
    (op : AluOp) → Decidable (op.Carries limit carry a value)
  | .add | .adc => inferInstanceAs (Decidable (limit ≤ a + value + carry))
  | .sub | .sbb | .cmp => inferInstanceAs (Decidable (a < value + carry))
  | .ana | .xra | .ora => .isFalse id

/-- What an operation leaves in the accumulator and in the five flags. -/
structure Computes (op : AluOp) (flags : Flags) (a operand : UInt8) (after : AluResult) : Prop where
  value : after.value = if op = .cmp then a else op.result flags a operand
  carry : after.flags.carry = true ↔
    op.Carries 256 (op.carryIn flags) a.toNat operand.toNat
  auxCarry : after.flags.auxCarry = true ↔
    op.Carries 16 (op.carryIn flags) (a.toNat % 16) (operand.toNat % 16)
  shows : after.flags.Shows (op.result flags a operand)

end AluOp

/-! ## The unit computes it -/

namespace Manual

theorem shows_ofExact (flags : Flags) (exact low : Int) :
    (ofExact flags exact low).flags.Shows (UInt8.ofInt exact) := by
  constructor <;> simp only [ofExact, signed, decide_eq_true_iff]

theorem shows_bitwise (flags : Flags) (value : UInt8) :
    (bitwise flags value).flags.Shows value := by
  constructor <;> simp only [bitwise, signed, decide_eq_true_iff]

theorem carry_plus (flags : Flags) (a value : UInt8) (carry : Bool) :
    ((plus flags a value carry).flags.carry = true ↔
        256 ≤ a.toNat + value.toNat + carry.toNat) ∧
      ((plus flags a value carry).flags.auxCarry = true ↔
        16 ≤ a.toNat % 16 + value.toNat % 16 + carry.toNat) := by
  simp only [plus, ofExact, Bool.not_eq_true', decide_eq_false_iff_not]
  unfold lowHalf
  omega

theorem carry_minus (flags : Flags) (a value : UInt8) (borrow : Bool) :
    ((minus flags a value borrow).flags.carry = true ↔
        a.toNat < value.toNat + borrow.toNat) ∧
      ((minus flags a value borrow).flags.auxCarry = true ↔
        a.toNat % 16 < value.toNat % 16 + borrow.toNat) := by
  have bound := a.toNat_lt
  simp only [minus, ofExact, Bool.not_eq_true', decide_eq_false_iff_not]
  unfold lowHalf
  omega

theorem ofInt_natCast (n : Nat) : UInt8.ofInt n = UInt8.ofNat n := by
  apply UInt8.toNat_inj.mp
  rw [toNat_ofInt, UInt8.toNat_ofNat']
  omega

variable {op : AluOp} {flags : Flags} {a value bits : UInt8}

theorem computes_bitwise (kept : op ≠ .cmp) (result : op.result flags a value = bits)
    (carries : ∀ limit carry x y, ¬ op.Carries limit carry x y) :
    op.Computes flags a value (bitwise flags bits) where
  value := (if_neg kept).symm ▸ result.symm
  carry := iff_of_false Bool.false_ne_true (carries _ _ _ _)
  auxCarry := iff_of_false Bool.false_ne_true (carries _ _ _ _)
  shows := result ▸ shows_bitwise flags bits

theorem computes_accumulate (op : AluOp) (flags : Flags) (a value : UInt8) :
    op.Computes flags a value (accumulate op flags a value) := by
  cases op with
  | add =>
      obtain ⟨carry, auxCarry⟩ := carry_plus flags a value false
      exact ⟨rfl, carry, auxCarry, shows_ofExact flags _ _⟩
  | adc =>
      obtain ⟨carry, auxCarry⟩ := carry_plus flags a value flags.carry
      exact ⟨rfl, carry, auxCarry, shows_ofExact flags _ _⟩
  | sub =>
      obtain ⟨carry, auxCarry⟩ := carry_minus flags a value false
      exact ⟨rfl, carry, auxCarry, shows_ofExact flags _ _⟩
  | sbb =>
      obtain ⟨carry, auxCarry⟩ := carry_minus flags a value flags.carry
      exact ⟨rfl, carry, auxCarry, shows_ofExact flags _ _⟩
  | cmp =>
      obtain ⟨carry, auxCarry⟩ := carry_minus flags a value false
      exact ⟨rfl, carry, auxCarry, shows_ofExact flags _ _⟩
  | ana =>
      refine computes_bitwise (by decide) ?_ fun _ _ _ _ => id
      rw [AluOp.result, AluOp.exactResult, ofInt_natCast, ← UInt8.toNat_and, UInt8.ofNat_toNat]
  | xra =>
      refine computes_bitwise (by decide) ?_ fun _ _ _ _ => id
      rw [AluOp.result, AluOp.exactResult, ofInt_natCast, ← UInt8.toNat_xor, UInt8.ofNat_toNat]
  | ora =>
      refine computes_bitwise (by decide) ?_ fun _ _ _ _ => id
      rw [AluOp.result, AluOp.exactResult, ofInt_natCast, ← UInt8.toNat_or, UInt8.ofNat_toNat]

end Manual

/-! ## Encodings -/

def Register.code : Register → Nat
  | .b => 0
  | .c => 1
  | .d => 2
  | .e => 3
  | .h => 4
  | .l => 5
  | .a => 7

def Operand.code : Operand → Nat
  | .register r => r.code
  | .memory => 6

def Pair.code : Pair → Nat
  | .bc => 0
  | .de => 1
  | .hl => 2
  | .sp => 3

def AluOp.code : AluOp → Nat
  | .add => 0
  | .adc => 1
  | .sub => 2
  | .sbb => 3
  | .ana => 4
  | .xra => 5
  | .ora => 6
  | .cmp => 7

/-- Where an accumulator operation finds its operand: in a register or at M, or in the byte
that follows the opcode. -/
inductive AluForm where
  | source (operand : Operand)
  | immediate

namespace AluForm

def opcode (op : AluOp) : AluForm → UInt8
  | .source operand => UInt8.ofNat (0x80 + 8 * op.code + operand.code)
  | .immediate => UInt8.ofNat (0xC6 + 8 * op.code)

def operation (op : AluOp) : AluForm → Operation
  | .source operand => .alu op operand
  | .immediate => .aluImmediate op

theorem decode_opcode (op : AluOp) (form : AluForm) :
    Operation.decode (form.opcode op) = some (form.operation op) := by
  cases form with
  | source operand =>
      cases operand with
      | register r => cases op <;> cases r <;> rfl
      | memory => cases op <;> rfl
  | immediate => cases op <;> rfl

end AluForm

namespace Operand

def incrementOpcode (target : Operand) : UInt8 :=
  UInt8.ofNat (0x04 + 8 * target.code)

def decrementOpcode (target : Operand) : UInt8 :=
  UInt8.ofNat (0x05 + 8 * target.code)

theorem decode_incrementOpcode (target : Operand) :
    Operation.decode target.incrementOpcode = some (.inr target) := by
  cases target with
  | register r => cases r <;> rfl
  | memory => rfl

theorem decode_decrementOpcode (target : Operand) :
    Operation.decode target.decrementOpcode = some (.dcr target) := by
  cases target with
  | register r => cases r <;> rfl
  | memory => rfl

end Operand

namespace Pair

def addOpcode (pair : Pair) : UInt8 :=
  UInt8.ofNat (0x09 + 16 * pair.code)

theorem decode_addOpcode (pair : Pair) :
    Operation.decode pair.addOpcode = some (.dad pair) := by
  cases pair <;> rfl

end Pair

/-! ## Steps -/

namespace Processor

variable {σ : Type} {p ready : Processor σ} {value : UInt8}

def operand? (p : Processor σ) : Operand → Option UInt8
  | .register r => some (p.core.registers.get r)
  | .memory => p.memory.byte? p.core.registers.hl.toNat

def formOperand? (p : Processor σ) : AluForm → Option UInt8
  | .source operand => p.operand? operand
  | .immediate => some p.core.registers.z

theorem inside_of_operand? {operand : Operand} (held : p.operand? operand = some value) :
    p.accessFault? (operand.addresses p.core.registers) = none ∧ p.operand operand = value := by
  cases operand with
  | register r =>
      rw [operand, Manual.register_eq_get]
      exact ⟨rfl, Option.some.inj held⟩
  | memory =>
      have inside : p.core.registers.hl.toNat < p.memory.capacity := by
        refine Nat.lt_of_not_le fun outside => ?_
        rw [operand?, Memory.byte?_eq_none_iff.mpr outside] at held
        cases held
      rw [operand, Operand.addresses, Manual.pair_eq_getPair]
      refine ⟨?_, Memory.byteAt_of_byte? held⟩
      change p.accessFault? [p.core.registers.hl] = none
      rw [accessFault?, Memory.firstOutside?_cons_of_lt _ inside]
      rfl

theorem byte?_of_immediate {op : AluOp} (fetching : p.core.acceptable = none)
    (readies : p.Readies (AluForm.immediate.opcode op) ready) :
    p.memory.byte? (p.core.registers.pc + 1).toNat = ready.formOperand? .immediate := by
  obtain ⟨rfl, faultless⟩ := readies.eq_prepared
  have opcode := readies.opcode_eq
  rw [prepared_of_fetching fetching] at opcode ⊢
  have length : p.instructionLength = 2 := by
    rw [instructionLength, show p.peek p.core.registers.pc = _ from opcode]
    cases op <;> rfl
  have inside : (p.core.registers.pc + 1).toNat < p.memory.capacity := by
    rw [preparationFault?, fetching] at faultless
    exact Memory.firstOutside?_eq_none_iff.mp (Option.map_eq_none_iff.mp faultless) _
      (by simp [instructionAddresses_eq, length])
  obtain ⟨byte, held⟩ := Memory.byte?_of_lt inside
  have fetched : p.fetchedCore.registers.z = byte := by
    change (if 1 < p.instructionLength then p.peek (p.core.registers.pc + 1) else _) = byte
    rw [length, if_pos (by decide)]
    exact Memory.byteAt_of_byte? held
  rw [held, ← fetched]
  rfl

/-- In every form an operation works on nothing but the flags, the accumulator and the value
of its operand. -/
theorem step_of_form {op : AluOp} {form : AluForm} (readies : p.Readies (form.opcode op) ready)
    (held : ready.formOperand? form = some value) :
    ∃ cost, p.step = (.ok cost, ready.setResult
      (Manual.accumulate op ready.core.flags ready.core.registers.a value) (.register .a)) := by
  have decoded := form.decode_opcode op
  cases form with
  | source operand =>
      obtain ⟨inside, rfl⟩ := inside_of_operand? held
      exact ⟨_, readies.step decoded inside⟩
  | immediate =>
      obtain rfl : ready.core.registers.z = value := Option.some.inj held
      exact ⟨_, readies.step decoded rfl⟩

/-- The accumulator operations give the same results and flags in every encoding, those of
integer arithmetic; an immediate operand that is fetched is the byte after the opcode. INR and
DCR give the results of adding and subtracting one, but keep carry; DAD adds to HL and changes
carry only. -/
theorem results_alike_in_every_encoding :
    (∀ op flags a value, ∃ result, AluOp.Computes op flags a value result ∧
      ∀ (form : AluForm) (p ready : Processor σ), p.Readies (form.opcode op) ready →
        ready.core.flags = flags → ready.core.registers.a = a →
        ready.formOperand? form = some value →
        ∃ cost, p.step = (.ok cost, ready.setResult result (.register .a))) ∧
    (∀ op (p ready : Processor σ), p.core.acceptable = none →
      p.Readies (AluForm.immediate.opcode op) ready →
        p.memory.byte? (p.core.registers.pc + 1).toNat = ready.formOperand? .immediate) ∧
    (∀ flags value, ∃ more less, AluOp.add.Computes flags value 1 more ∧
      AluOp.sub.Computes flags value 1 less ∧
      ∀ (target : Operand) (p ready : Processor σ), ready.core.flags = flags →
        ready.operand? target = some value →
        (p.Readies target.incrementOpcode ready → ∃ cost, p.step =
          (.ok cost, ready.setResult (Manual.keepingCarry flags more) target)) ∧
        (p.Readies target.decrementOpcode ready → ∃ cost, p.step =
          (.ok cost, ready.setResult (Manual.keepingCarry flags less) target))) ∧
    ∀ (pair : Pair) (p ready : Processor σ), p.Readies pair.addOpcode ready →
      ∃ cost sum carry,
        sum.toNat =
          (ready.core.registers.hl.toNat + (ready.core.registers.getPair pair).toNat) % 65536 ∧
        (carry = true ↔
          65536 ≤ ready.core.registers.hl.toNat + (ready.core.registers.getPair pair).toNat) ∧
        p.step = (.ok cost, (ready.mapRegisters fun r => r.setHL sum).mapFlags
          fun flags => { flags with carry }) := by
  refine ⟨?_, fun op p ready => byte?_of_immediate, ?_, ?_⟩
  · intro op flags a value
    refine ⟨_, Manual.computes_accumulate op flags a value, ?_⟩
    rintro form p ready readies rfl rfl held
    exact step_of_form readies held
  · intro flags value
    refine ⟨_, _, Manual.computes_accumulate .add flags value 1,
      Manual.computes_accumulate .sub flags value 1, ?_⟩
    rintro target p ready rfl held
    obtain ⟨inside, rfl⟩ := inside_of_operand? held
    exact ⟨fun readies => ⟨_, readies.step target.decode_incrementOpcode inside⟩,
      fun readies => ⟨_, readies.step target.decode_decrementOpcode inside⟩⟩
  · intro pair p ready readies
    have stepped := readies.step pair.decode_addOpcode rfl
    simp only [Operation.meaning, Manual.pair_eq_getPair, Manual.withPair_eq_setPair] at stepped
    exact ⟨_, _, _, UInt16.toNat_ofNat', decide_eq_true_iff, stepped⟩

/-- An instruction before the byte 0F, with HL at that byte and CY set. -/
def facing (opcode : UInt8) : Processor Unit where
  core := { Core.cleared with
    registers := { Registers.cleared with a := 0x10, l := 0x01 }
    flags := { Flags.cleared with carry := true } }
  memory := ⟨⟨#[opcode, 0x0F]⟩⟩
  ports := ⟨(), none, none⟩

/-- SBB M and SBI borrow from the low half only, INR M keeps the carry that was there, and
DAD H clears it. -/
theorem results_alike_in_every_encoding_facing :
    (∀ opcode ∈ [0x9E, 0xDE],
        (facing opcode).step.2.core.registers.a = 0x00 ∧
          (facing opcode).step.2.core.flags.carry = false ∧
          (facing opcode).step.2.core.flags.auxCarry = true) ∧
      ((facing 0x34).step.2.peek 1 = 0x10 ∧ (facing 0x34).step.2.core.flags.carry = true) ∧
      (facing 0x29).step.2.core.registers.hl = 0x0002 ∧
        (facing 0x29).step.2.core.flags.carry = false := by
  obtain ⟨alike, following, counts, adds⟩ := results_alike_in_every_encoding (σ := Unit)
  refine ⟨?_, ?_, ?_⟩
  · obtain ⟨result, computes, steps⟩ := alike .sbb (facing 0x9E).core.flags 0x10 0x0F
    have value : result.value = 0x00 := computes.value.trans (by decide)
    have carry : result.flags.carry = false :=
      Bool.eq_false_iff.mpr fun set => absurd (computes.carry.mp set) (by decide)
    have auxCarry : result.flags.auxCarry = true := computes.auxCarry.mpr (by decide)
    intro opcode among
    obtain rfl | rfl : opcode = 0x9E ∨ opcode = 0xDE := by simpa using among
    · obtain ⟨cost, stepped⟩ := steps (.source .memory) (facing 0x9E) (facing 0x9E).fetched
        ⟨rfl, rfl⟩ rfl rfl rfl
      rw [stepped]
      exact ⟨value, carry, auxCarry⟩
    · have readies : (facing 0xDE).Readies 0xDE (facing 0xDE).fetched := ⟨rfl, rfl⟩
      obtain ⟨cost, stepped⟩ := steps .immediate (facing 0xDE) (facing 0xDE).fetched
        readies rfl rfl (following .sbb _ _ rfl readies).symm
      rw [stepped]
      exact ⟨value, carry, auxCarry⟩
  · obtain ⟨more, less, computes, -, steps⟩ := counts (facing 0x34).core.flags 0x0F
    obtain ⟨cost, stepped⟩ := (steps .memory (facing 0x34) (facing 0x34).fetched rfl rfl).1
      ⟨rfl, rfl⟩
    have raised : more.value = 0x10 := computes.value.trans (by decide)
    rw [stepped]
    refine ⟨?_, rfl⟩
    rw [← raised]
    rfl
  · obtain ⟨cost, sum, carry, whole, carried, stepped⟩ :=
      adds .hl (facing 0x29) (facing 0x29).fetched ⟨rfl, rfl⟩
    have doubled : sum = 0x0002 := UInt16.toNat_inj.mp (whole.trans (by decide))
    rw [stepped, doubled]
    exact ⟨rfl, Bool.eq_false_iff.mpr fun set => absurd (carried.mp set) (by decide)⟩

end Processor

end Intel8080
