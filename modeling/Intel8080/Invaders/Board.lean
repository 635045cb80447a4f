import Intel8080.Invaders.Controls
import Intel8080.Invaders.ShiftRegister
import Intel8080.Monitor

/-!
# The board

The devices behind the ports. Four input ports and five output ports are wired; a
port that is not wired reads as zero, ignores what is written, and is reported.
-/

namespace Intel8080.Invaders

inductive InputPort where
  | fixed
  | firstControls
  | secondControls
  | shiftWindow
  deriving DecidableEq

inductive OutputPort where
  | shiftOffset
  | firstSounds
  | shiftData
  | secondSounds
  | watchdog
  deriving DecidableEq

def InputPort.ofNumber? (number : UInt8) : Option InputPort :=
  match number.toNat with
  | 0 => some .fixed
  | 1 => some .firstControls
  | 2 => some .secondControls
  | 3 => some .shiftWindow
  | _ => none

def OutputPort.ofNumber? (number : UInt8) : Option OutputPort :=
  match number.toNat with
  | 2 => some .shiftOffset
  | 3 => some .firstSounds
  | 4 => some .shiftData
  | 5 => some .secondSounds
  | 6 => some .watchdog
  | _ => none

structure Board where
  /-- What the two ports of controls show. -/
  firstInput : UInt8
  secondInput : UInt8
  shift : ShiftRegister
  firstSounds : UInt8
  secondSounds : UInt8
  deriving DecidableEq

namespace Board

/-- The board when it is switched on, before it has looked at its switches. -/
def cleared : Board :=
  ⟨1 <<< fixedBit, 0, .cleared, 0, 0⟩

def applySwitches (b : Board) (switches : Switches) : Board :=
  { b with secondInput := switches.apply b.secondInput }

def new (switches : Switches) : Board :=
  cleared.applySwitches switches

def read (b : Board) : InputPort → UInt8
  | .fixed => 0x0e
  | .firstControls => b.firstInput
  | .secondControls => b.secondInput
  | .shiftWindow => b.shift.read

/-- Takes a byte at an output port. The watchdog is not needed and ignores it. -/
def write (b : Board) (value : UInt8) : OutputPort → Board
  | .shiftOffset => { b with shift := b.shift.setOffset value }
  | .firstSounds => { b with firstSounds := value }
  | .shiftData => { b with shift := b.shift.push value }
  | .secondSounds => { b with secondSounds := value }
  | .watchdog => b

def modifyInput (b : Board) (f : UInt8 → UInt8) : InputByte → Board
  | .first => { b with firstInput := f b.firstInput }
  | .second => { b with secondInput := f b.secondInput }

/-- Presses or releases a control. Releasing the tilt sensor has no effect. -/
def setControl (b : Board) (control : Control) (pressed : Bool) : Board :=
  match control, pressed with
  | .tilt, false => b
  | control, pressed =>
      b.modifyInput (fun byte => setBit byte control.wire.2 pressed) control.wire.1

def input (number : UInt8) (b : Board) : UInt8 × Board :=
  match InputPort.ofNumber? number with
  | some port => (b.read port, b)
  | none => (0, b)

def output (number value : UInt8) (b : Board) : Board :=
  match OutputPort.ofNumber? number with
  | some port => b.write value port
  | none => b

def remark : PortAccess → List Notice
  | .read number => if (InputPort.ofNumber? number).isSome then [] else [.unmappedRead number]
  | .write number value =>
      if (OutputPort.ofNumber? number).isSome then [] else [.unmappedWrite number value]

def ports (b : Board) : Ports Board :=
  ⟨b, some input, some output⟩

end Board

end Intel8080.Invaders
