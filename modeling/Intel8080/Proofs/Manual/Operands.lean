import Intel8080.Alu
import Intel8080.Memory.Basic
import Intel8080.Registers

/-!
# Operands as the manual names them

The manual calls a register by its letter, a pair by its high register and a condition by
the flag that it tests. Each name is read here as the field, the bytes or the bit that it
stands for, and nothing of the processor is used for it. What the processor does with the
same names is then shown to agree.
-/

namespace Intel8080

inductive FlagName where
  | sign
  | zero
  | auxCarry
  | parity
  | carry
  deriving DecidableEq

def Flags.get (f : Flags) : FlagName → Bool
  | .sign => f.sign
  | .zero => f.zero
  | .auxCarry => f.auxCarry
  | .parity => f.parity
  | .carry => f.carry

namespace Manual

/-! ## Bytes and words -/

def word (high low : UInt8) : UInt16 :=
  ⟨high.toBitVec ++ low.toBitVec⟩

def upper (word : UInt16) : UInt8 :=
  ⟨word.toBitVec.extractLsb' 8 8⟩

def lower (word : UInt16) : UInt8 :=
  ⟨word.toBitVec.extractLsb' 0 8⟩

def withByte (m : Memory) (address : UInt16) (value : UInt8) : Memory :=
  ⟨⟨m.bytes.data.setIfInBounds address.toNat value⟩⟩

/-! ## Registers and pairs -/

def register (r : Registers) : Register → UInt8
  | .a => r.a
  | .b => r.b
  | .c => r.c
  | .d => r.d
  | .e => r.e
  | .h => r.h
  | .l => r.l

def withRegister (r : Registers) (value : UInt8) : Register → Registers
  | .a => { r with a := value }
  | .b => { r with b := value }
  | .c => { r with c := value }
  | .d => { r with d := value }
  | .e => { r with e := value }
  | .h => { r with h := value }
  | .l => { r with l := value }

theorem register_withRegister_of_ne (r : Registers) (value : UInt8) {target other : Register}
    (distinct : other ≠ target) :
    register (withRegister r value target) other = register r other := by
  cases target <;> cases other <;> simp_all [withRegister, register]

/-- The registers of a pair, the one that it is called by first. SP has none. -/
def halves? : Pair → Option (Register × Register)
  | .bc => some (.b, .c)
  | .de => some (.d, .e)
  | .hl => some (.h, .l)
  | .sp => none

def pair (r : Registers) (name : Pair) : UInt16 :=
  match halves? name with
  | some (high, low) => word (register r high) (register r low)
  | none => r.sp

def withPair (r : Registers) (value : UInt16) (name : Pair) : Registers :=
  match halves? name with
  | some (high, low) => withRegister (withRegister r (upper value) high) (lower value) low
  | none => { r with sp := value }

def pointerPair : Pointer → Pair
  | .bc => .bc
  | .de => .de

/-- The operand bytes as a word. The first of them, in Z, is the low one. -/
def operandWord (r : Registers) : UInt16 :=
  word r.w r.z

/-! ## Flags -/

/-- The flag that a condition tests, and what it wants it to be. -/
def wanted : Condition → FlagName × Bool
  | .notZero => (.zero, false)
  | .zero => (.zero, true)
  | .notCarry => (.carry, false)
  | .carry => (.carry, true)
  | .parityOdd => (.parity, false)
  | .parityEven => (.parity, true)
  | .plus => (.sign, false)
  | .minus => (.sign, true)

def met (flags : Flags) (condition : Condition) : Bool :=
  flags.get (wanted condition).1 == (wanted condition).2

/-- The low byte of PSW, bit 7 first. -/
def status (f : Flags) : UInt8 :=
  ⟨BitVec.ofBoolListBE [f.sign, f.zero, false, f.auxCarry, false, f.parity, true, f.carry]⟩

def flagsOf (status : UInt8) : Flags where
  sign := status.toBitVec[7]
  zero := status.toBitVec[6]
  auxCarry := status.toBitVec[4]
  parity := status.toBitVec[2]
  carry := status.toBitVec[0]

/-! ## Agreement with the processor -/

theorem word_eq_joinBytes : word = joinBytes := by
  funext high low
  apply UInt16.toNat_inj.mp
  rw [toNat_joinBytes]
  change (high.toBitVec ++ low.toBitVec).toNat = _
  rw [BitVec.toNat_append, ← Nat.shiftLeft_add_eq_or_of_lt low.toBitVec.isLt, Nat.shiftLeft_eq,
    Nat.mul_comm]
  rfl

theorem upper_eq_highByte : upper = highByte := by
  funext word
  apply UInt8.toNat_inj.mp
  rw [toNat_highByte]
  change (word.toBitVec.extractLsb' 8 8).toNat = _
  rw [BitVec.extractLsb'_toNat, Nat.shiftRight_eq_div_pow]
  exact Nat.mod_eq_of_lt (Nat.div_lt_of_lt_mul word.toNat_lt)

theorem lower_eq_lowByte : lower = lowByte := by
  funext word
  apply UInt8.toNat_inj.mp
  rw [toNat_lowByte]
  exact BitVec.extractLsb'_toNat ..

theorem word_upper_lower (w : UInt16) : word (upper w) (lower w) = w := by
  rw [word_eq_joinBytes, upper_eq_highByte, lower_eq_lowByte]
  exact joinBytes_highByte_lowByte w

theorem register_eq_get : register = Registers.get := by
  funext r name
  cases name <;> rfl

theorem withRegister_eq_set : withRegister = Registers.set := by
  funext r value name
  cases name <;> rfl

theorem pair_eq_getPair : pair = Registers.getPair := by
  funext r name
  cases name <;> simp only [pair, halves?, word_eq_joinBytes] <;> rfl

theorem withPair_eq_setPair : withPair = Registers.setPair := by
  funext r value name
  cases name <;> simp only [withPair, halves?, upper_eq_highByte, lower_eq_lowByte] <;> rfl

theorem pair_pointerPair (r : Registers) (name : Pointer) :
    pair r (pointerPair name) = r.pointer name := by
  rw [pair_eq_getPair]
  cases name <;> rfl

theorem operandWord_eq_wz : operandWord = Registers.wz := by
  funext r
  rw [operandWord, word_eq_joinBytes]
  rfl

theorem met_eq_holds (flags : Flags) (condition : Condition) :
    met flags condition = condition.holds flags := by
  obtain ⟨s, z, ac, p, cy⟩ := flags
  cases condition <;> simp [met, wanted, Flags.get, Condition.holds]

theorem status_eq_pack : status = Flags.pack := by
  funext ⟨s, z, ac, p, cy⟩
  cases s <;> cases z <;> cases ac <;> cases p <;> cases cy <;> rfl

theorem flagsOf_status (f : Flags) : flagsOf (status f) = f := by
  rw [status_eq_pack]
  exact Flags.unpack_pack f

theorem withByte_eq_store : withByte = Memory.store := rfl

theorem flagsOf_eq_unpack : flagsOf = Flags.unpack := rfl

end Manual

end Intel8080
