import Intel8080.Invaders.Board
import Intel8080.Pacing

/-!
# The machine

The board with its processor, run one video frame at a time. The screen raises an
interrupt in the middle of a frame and another at its end, so a frame is two runs
of the processor with a request after each. Cycles beyond the end of a frame count
towards the next.
-/

namespace Intel8080.Invaders

structure Configuration where
  clockHz : UInt32
  frameRateHz : UInt32
  switches : Switches
  deriving DecidableEq

namespace Configuration

/-- Two million cycles and sixty frames a second, three ships a credit, coin
information shown. -/
def standard : Configuration :=
  ⟨2000000, 60, ⟨3, true⟩⟩

/-- The length of a frame in cycles. A frame rate of zero counts as one. -/
def cyclesPerFrame (c : Configuration) : Nat :=
  c.clockHz.toNat / max c.frameRateHz.toNat 1

end Configuration

def videoStart : Nat := 0x2400

def videoSize : Nat := 0x1c00

def midScreenVector : UInt8 := Opcode.rst 1

def endOfScreenVector : UInt8 := Opcode.rst 2

/-- The processor with its board, and how far into a frame it is. -/
structure Machine where
  configuration : Configuration
  cpu : Monitor Board
  /-- The cycles spent in the current frame, the overshoot of the last included. -/
  frameCycles : Nat

namespace Machine

/-- A machine with empty memory, keeping a journal. -/
def new (configuration : Configuration) (journal : Journal) : Machine where
  configuration
  cpu :=
    { processor := .new (.zeroed Memory.addressSpace) (Board.new configuration.switches).ports
      journal
      remark := Board.remark }
  frameCycles := 0

def board (m : Machine) : Board :=
  m.cpu.processor.ports.device

def sounds (m : Machine) : UInt8 × UInt8 :=
  (m.board.firstSounds, m.board.secondSounds)

def modifyBoard (m : Machine) (f : Board → Board) : Machine :=
  { m with
    cpu := m.cpu.modify fun p => { p with ports := { p.ports with device := f p.ports.device } } }

def note (m : Machine) (notice : Notice) : Machine :=
  { m with cpu := m.cpu.note notice }

/-- Resets the processor and the devices. Memory is kept. -/
def reset (m : Machine) : Machine :=
  let noted := m.note .boardReset
  let cleared := { noted with cpu := noted.cpu.modify Processor.reset, frameCycles := 0 }
  cleared.modifyBoard fun _ => .new m.configuration.switches

/-- Copies a program to the start of memory, where execution begins. A program
that does not fit changes nothing. -/
def loadRom (m : Machine) (rom : ByteArray) : Except OutOfBounds Machine := do
  let processor ← m.cpu.processor.load rom 0
  let loaded := { m with cpu := { m.cpu with processor := processor.jump 0 } }
  return loaded.note (.romLoaded rom.size)

def setControl (m : Machine) (control : Control) (pressed : Bool) : Machine :=
  m.modifyBoard fun b => b.setControl control pressed

/-- Runs the processor up to a cycle of the current frame and requests an
interrupt there. After a fault there is no request. -/
def runToInterrupt (target : Nat) (vector : UInt8) : Machine → Option Fault × Machine
  | ⟨configuration, cpu, frameCycles⟩ =>
      match cpu.runUntil target frameCycles with
      | (none, frameCycles, cpu) =>
          (none, ⟨configuration, cpu.requestInterrupt vector, frameCycles⟩)
      | (some fault, frameCycles, cpu) => (some fault, ⟨configuration, cpu, frameCycles⟩)

/-- Runs the rest of a frame. The result is the number of cycles spent, or the
fault that ended the frame early; the cycles before a fault stay counted, and the
next call goes through both halves again. -/
def stepFrame (m : Machine) : Except Fault Nat × Machine :=
  let length := m.configuration.cyclesPerFrame
  let before := m.frameCycles
  match m.runToInterrupt (length / 2) midScreenVector with
  | (some fault, m) => (.error fault, m)
  | (none, m) =>
      match m.runToInterrupt length endOfScreenVector with
      | (some fault, m) => (.error fault, m)
      | (none, m) =>
          (.ok (m.frameCycles - before), { m with frameCycles := m.frameCycles - length })

def video (m : Machine) : ByteArray :=
  m.cpu.processor.memory.bytes.extract videoStart (videoStart + videoSize)

def litPixels (m : Machine) : Nat :=
  m.video.foldl (fun lit byte => lit + bitCount byte) 0

end Machine

end Intel8080.Invaders
