import Intel8080.Flags
import Intel8080.Memory.Basic
import Intel8080.Opcode.Listing
import Intel8080.Registers

/-!
# The processor core

Everything that the processor itself holds, apart from the memory and the devices
it is connected to: what a failed step puts back.
-/

namespace Intel8080

structure Core where
  registers : Registers
  flags : Flags
  interruptsEnabled : Bool
  /-- The opcode being executed: fetched, or put on the bus by an interrupt. -/
  opcode : UInt8
  /-- Where `opcode` was fetched from, or the value of PC when the interrupt was
  accepted. -/
  opcodeAddress : UInt16
  /-- The opcode of the interrupt that waits to be accepted. There is one slot. -/
  pendingInterrupt : Option UInt8
  deriving DecidableEq

namespace Core

def cleared : Core where
  registers := .cleared
  flags := .cleared
  interruptsEnabled := false
  opcode := 0
  opcodeAddress := 0
  pendingInterrupt := none

/-- The opcode of the interrupt that the next step accepts, if it accepts one. -/
def acceptable (core : Core) : Option UInt8 :=
  if core.interruptsEnabled then core.pendingInterrupt else none

/-- Takes an interrupt's opcode as the one to execute. Nothing is fetched, PC
stays and interrupts stay enabled. -/
def accept (core : Core) (vector : UInt8) : Core :=
  { core with
    opcode := vector
    opcodeAddress := core.registers.pc
    pendingInterrupt := none }

end Core

end Intel8080
