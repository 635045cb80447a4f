import Intel8080.Diagnostic.Console
import Intel8080.Disassembly
import Intel8080.Monitor

/-!
# Diagnostic programs

A diagnostic program runs on a bare processor in the little that it needs of an
operating system. A `CALL 0005h` is not executed: it is served as a console call
and skipped. A `CALL 0000h`, or arriving at address zero, ends the program.
-/

namespace Intel8080.Diagnostic

structure Configuration where
  loadAddress : UInt16
  /-- The initial SP; zero if not given. -/
  stackPointer : Option UInt16
  /-- Bytes that are replaced after the program has been placed, in order. -/
  patches : List (UInt16 × UInt8)
  /-- What is added to the address of a text before it is printed. -/
  textOffset : UInt16
  maxSteps : Nat
  memorySize : Nat
  deriving DecidableEq

namespace Configuration

/-- The usual place of a program, and ten million steps. -/
def standard : Configuration where
  loadAddress := 0x100
  stackPointer := none
  patches := []
  textOffset := 3
  maxSteps := 10000000
  memorySize := Memory.addressSpace

/-- The standard configuration with the one patch that moves the stack of the
classic diagnostic out of its own code. -/
def cpudiag : Configuration :=
  { standard with patches := [(0x170, 0x07)] }

end Configuration

structure Report where
  output : String
  steps : Nat
  cycles : Nat
  deriving DecidableEq

inductive Failure where
  | programTooLarge (access : OutOfBounds)
  | patchOutside (address : UInt16) (access : OutOfBounds)
  | stepLimit (limit : Nat) (address : UInt16)
  | unreadable (access : OutOfBounds)
  | text (failure : TextFailure)
  /-- The instruction at `address` failed. Its text is missing if it could not be
  read as a whole. -/
  | instruction (address : UInt16) (disassembly : Option String) (fault : Fault)
  deriving DecidableEq

namespace Failure

/-- What was being done, or the cause itself where nothing is to be added. -/
def message : Failure → String
  | .programTooLarge _ => "program does not fit in memory"
  | .patchOutside address _ => s!"cannot patch {Hex.wordLiteral address}"
  | .stepLimit limit address => s!"no exit after {limit} steps (PC {Hex.word address})"
  | .unreadable access => access.message
  | .text failure => failure.message
  | .instruction address disassembly _ =>
      let shown := disassembly.getD "??"
      s!"CPU fault at {Hex.word address}: {shown}"

def fault? : Failure → Option Fault
  | .programTooLarge access => some (.outOfBounds access)
  | .patchOutside _ access => some (.outOfBounds access)
  | .stepLimit _ _ => none
  | .unreadable access => some (.outOfBounds access)
  | .text _ => none
  | .instruction _ _ fault => some fault

def cause? : Failure → Option String
  | .unreadable _ => none
  | failure => failure.fault?.map Fault.message

end Failure

structure Session where
  cpu : Monitor Unit
  output : String
  /-- Instructions executed and console calls served, the current one included. -/
  steps : Nat
  cycles : Nat

inductive Decision where
  | exit
  | console
  | execute
  deriving DecidableEq

namespace Session

def core (s : Session) : Core := s.cpu.processor.core

def memory (s : Session) : Memory := s.cpu.processor.memory

def note (s : Session) (notice : Notice) : Session :=
  { s with cpu := s.cpu.note notice }

end Session

def callOpcode : UInt8 := 0xcd

def consoleEntry : UInt16 := 5

def callTarget (memory : Memory) (address : UInt16) : Except OutOfBounds (Option UInt16) := do
  if (← memory.read address) = callOpcode then
    let low ← memory.read (address + 1)
    let high ← memory.read (address + 2)
    return some (joinBytes high low)
  else
    return none

namespace Session

/-- Decides what is to be done at PC. Arriving at address zero ends the program,
but a program may start there. -/
def decide (s : Session) : Except OutOfBounds Decision := do
  let pc := s.core.registers.pc
  if pc = 0 ∧ 1 < s.steps then
    return .exit
  match ← callTarget s.memory pc with
  | none => return .execute
  | some target =>
      if target = 0 then return .exit
      else if target = consoleEntry then return .console
      else return .execute

def serveConsole (s : Session) (textOffset : UInt16) : Except TextFailure Session := do
  let registers := s.core.registers
  let output ← consoleOutput registers s.memory textOffset
  let noted := match ConsoleFunction.ofNumber registers.c with
    | .other number => s.note (.consoleCallIgnored number)
    | _ => s
  return { noted with
    cpu := noted.cpu.modify fun p => p.jump (registers.pc + 3)
    output := s.output ++ output }

/-- Executes the instruction at PC. A fault leaves PC where it was, at the
instruction to blame. -/
def executeNext : Session → Option Failure × Session
  | ⟨cpu, output, steps, cycles⟩ =>
      match cpu.step with
      | (.ok cost, cpu) => (none, ⟨cpu, output, steps, cycles + cost⟩)
      | (.error fault, cpu) =>
          let pc := cpu.processor.core.registers.pc
          let text := (cpu.processor.memory.disassemble pc).toOption.map Disassembly.text
          let cpu := cpu.note (.programFaulted fault cpu.processor.core)
          (some (.instruction pc text fault), ⟨cpu, output, steps, cycles⟩)

/-- Runs for at most `remaining` more steps out of `configuration.maxSteps`. -/
def run (configuration : Configuration) : Nat → Session → Except Failure Report × Session
  | 0, s =>
      let pc := s.core.registers.pc
      (.error (.stepLimit configuration.maxSteps pc), s.note (.stepLimitReached pc))
  | remaining + 1, s =>
      let s := { s with steps := s.steps + 1 }
      match s.decide with
      | .error access => (.error (.unreadable access), s)
      | .ok .exit =>
          (.ok ⟨s.output, s.steps, s.cycles⟩, s.note (.programExited s.steps s.cycles))
      | .ok .console =>
          match s.serveConsole configuration.textOffset with
          | .error failure => (.error (.text failure), s)
          | .ok s => run configuration remaining s
      | .ok .execute =>
          match s.executeNext with
          | (some failure, s) => (.error failure, s)
          | (none, s) => run configuration remaining s

end Session

def applyPatches (memory : Memory) : List (UInt16 × UInt8) → Except Failure Memory
  | [] => .ok memory
  | (address, value) :: rest =>
      match memory.write address value with
      | .error access => .error (.patchOutside address access)
      | .ok patched => applyPatches patched rest

def loadedMemory (program : ByteArray) (configuration : Configuration) : Except Failure Memory :=
  let empty := Memory.zeroed configuration.memorySize
  match empty.load program configuration.loadAddress.toNat with
  | .error access => .error (.programTooLarge access)
  | .ok memory => applyPatches memory configuration.patches

def initialRegisters (configuration : Configuration) : Registers :=
  { Registers.cleared with
    pc := configuration.loadAddress
    sp := configuration.stackPointer.getD 0 }

def Session.start (memory : Memory) (configuration : Configuration) (journal : Journal) :
    Session where
  cpu :=
    { processor :=
        { core := { Core.cleared with registers := initialRegisters configuration }
          memory
          ports := ⟨(), none, none⟩ }
      journal
      remark := Monitor.silent }
  output := ""
  steps := 0
  cycles := 0

/-- Runs a program to its end. The journal of the run comes with the result. -/
def run (program : ByteArray) (configuration : Configuration) (journal : Journal) :
    Except Failure Report × Journal :=
  match loadedMemory program configuration with
  | .error failure => (.error failure, journal)
  | .ok memory =>
      let started := (Session.start memory configuration journal).note
        (.programStarted program.size configuration.loadAddress)
      let (result, s) := started.run configuration configuration.maxSteps
      (result, s.cpu.journal)

end Intel8080.Diagnostic
