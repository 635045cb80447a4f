import Intel8080.Processor.Core

/-!
# The processor and what it is connected to

A processor is a core with a memory and ports. What is attached to the ports is
a device with a state `σ` of its own; a port access runs its handler on that state.
Either handler may be missing.
-/

namespace Intel8080

structure Ports (σ : Type) where
  device : σ
  input : Option (UInt8 → σ → UInt8 × σ)
  output : Option (UInt8 → UInt8 → σ → σ)

structure Processor (σ : Type) where
  core : Core
  memory : Memory
  ports : Ports σ

namespace Processor

variable {σ : Type}

def new (memory : Memory) (ports : Ports σ) : Processor σ :=
  ⟨.cleared, memory, ports⟩

def reset (p : Processor σ) : Processor σ :=
  { p with core := .cleared }

/-- Asks for an interrupt with the given opcode. The slot holds the latest
request only. -/
def requestInterrupt (p : Processor σ) (vector : UInt8) : Processor σ :=
  { p with core := { p.core with pendingInterrupt := some vector } }

/-- Copies bytes into memory, or fails without a change. -/
def load (p : Processor σ) (data : ByteArray) (address : Nat) :
    Except OutOfBounds (Processor σ) := do
  let memory ← p.memory.load data address
  return { p with memory }

def jump (p : Processor σ) (address : UInt16) : Processor σ :=
  { p with core := { p.core with registers := { p.core.registers with pc := address } } }

end Processor

/-- A computation on a processor that may stop with a fault. The state at the
fault is kept: what to put back is decided by the caller. -/
abbrev Exec (σ : Type) := EStateM Fault (Processor σ)

namespace Exec

variable {σ : Type}

def core : Exec σ Core := fun p => .ok p.core p

def registers : Exec σ Registers := fun p => .ok p.core.registers p

def flags : Exec σ Flags := fun p => .ok p.core.flags p

def setCore (core : Core) : Exec σ Unit := fun p => .ok () { p with core }

def modifyRegisters (f : Registers → Registers) : Exec σ Unit := fun p =>
  .ok () { p with core := { p.core with registers := f p.core.registers } }

def modifyFlags (f : Flags → Flags) : Exec σ Unit := fun p =>
  .ok () { p with core := { p.core with flags := f p.core.flags } }

def setInterruptsEnabled (enabled : Bool) : Exec σ Unit := fun p =>
  .ok () { p with core := { p.core with interruptsEnabled := enabled } }

/-! ## Memory -/

def readByte (address : UInt16) : Exec σ UInt8 := fun p =>
  match p.memory.read address with
  | .ok value => .ok value p
  | .error access => .error (.outOfBounds access) p

def checkAddress (address : UInt16) : Exec σ Unit := fun p =>
  match p.memory.check address with
  | .ok _ => .ok () p
  | .error access => .error (.outOfBounds access) p

def storeByte (address : UInt16) (value : UInt8) : Exec σ Unit := fun p =>
  .ok () { p with memory := p.memory.store address value }

def writeByte (address : UInt16) (value : UInt8) : Exec σ Unit := do
  checkAddress address
  storeByte address value

def readWord (address : UInt16) : Exec σ UInt16 := do
  let low ← readByte address
  let high ← readByte (address + 1)
  return joinBytes high low

/-- Replaces the word at an address. Both addresses are checked before either
byte changes. -/
def writeWord (address word : UInt16) : Exec σ Unit := do
  checkAddress address
  checkAddress (address + 1)
  storeByte address (lowByte word)
  storeByte (address + 1) (highByte word)

/-! ## Fetching -/

def fetchLow (length : Nat) : Exec σ Unit := do
  if 1 < length then
    let low ← readByte ((← registers).pc + 1)
    modifyRegisters fun r => { r with z := low }

def fetchHigh (length : Nat) : Exec σ Unit := do
  if 2 < length then
    let high ← readByte ((← registers).pc + 2)
    modifyRegisters fun r => { r with w := high }

/-- Loads the core with the instruction at PC. Each operand byte is latched as it is
read, so Z stays filled if the byte for W lies outside memory. -/
def fetch : Exec σ Unit := do
  let pc := (← registers).pc
  let opcode ← readByte pc
  let length := (Opcode.entry opcode).length
  fetchLow length
  fetchHigh length
  let core ← core
  setCore { core with
    registers := { core.registers with pc := pc + UInt16.ofNat length }
    opcode
    opcodeAddress := pc }

/-! ## The stack -/

/-- Pushes a word: the high byte goes to SP - 1 and the low byte to SP - 2. -/
def push (word : UInt16) : Exec σ Unit := do
  let sp := (← registers).sp - 2
  writeWord sp word
  modifyRegisters fun r => { r with sp }

def pop : Exec σ UInt16 := do
  let sp := (← registers).sp
  let word ← readWord sp
  modifyRegisters fun r => { r with sp := sp + 2 }
  return word

def call (target : UInt16) : Exec σ Unit := do
  push (← registers).pc
  modifyRegisters fun r => { r with pc := target }

def ret : Exec σ Unit := do
  let target ← pop
  modifyRegisters fun r => { r with pc := target }

/-! ## Operands -/

def readOperand : Operand → Exec σ UInt8
  | .register r => do return (← registers).get r
  | .memory => do readByte (← registers).hl

def writeOperand (value : UInt8) : Operand → Exec σ Unit
  | .register r => modifyRegisters fun registers => registers.set value r
  | .memory => do writeByte (← registers).hl value

def readStackPair : StackPair → Exec σ UInt16
  | .bc => do return (← registers).bc
  | .de => do return (← registers).de
  | .hl => do return (← registers).hl
  | .psw => do return joinBytes (← registers).a (← flags).pack

def writeStackPair (word : UInt16) : StackPair → Exec σ Unit
  | .bc => modifyRegisters fun r => r.setBC word
  | .de => modifyRegisters fun r => r.setDE word
  | .hl => modifyRegisters fun r => r.setHL word
  | .psw => do
      modifyFlags fun _ => .unpack (lowByte word)
      modifyRegisters fun r => { r with a := highByte word }

/-! ## Ports -/

def readPort (port : UInt8) : Exec σ UInt8 := fun ⟨core, memory, ports⟩ =>
  match ports.input with
  | some handler =>
      let (value, device) := handler port ports.device
      .ok value ⟨core, memory, { ports with device }⟩
  | none => .error (.missingPortHandler .read port) ⟨core, memory, ports⟩

def writePort (port value : UInt8) : Exec σ Unit := fun ⟨core, memory, ports⟩ =>
  match ports.output with
  | some handler => .ok () ⟨core, memory, { ports with device := handler port value ports.device }⟩
  | none => .error (.missingPortHandler .write port) ⟨core, memory, ports⟩

end Exec

end Intel8080
