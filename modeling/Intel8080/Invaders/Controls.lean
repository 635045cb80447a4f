import Intel8080.Word

/-!
# Controls and switches

What the players and the owner of the cabinet can set, and the bits of the two input
bytes that show it. A control owns one bit; the switches share the second byte with
controls, so each of them is written with a mask that leaves the other bits alone.
-/

namespace Intel8080.Invaders

inductive Player where
  | one
  | two
  deriving DecidableEq

inductive Button where
  | start
  | left
  | right
  | shoot
  deriving DecidableEq

inductive Control where
  | coin
  | button (player : Player) (button : Button)
  /-- Latched until a reset. -/
  | tilt
  deriving DecidableEq

inductive InputByte where
  | first
  | second
  deriving DecidableEq

structure Switches where
  /-- Any number may be given; the board knows three to six. -/
  shipsPerCredit : UInt8
  showCoinInfo : Bool
  deriving DecidableEq

def setBit (byte bit : UInt8) (set : Bool) : UInt8 :=
  let mask := 1 <<< bit
  if set then byte ||| mask else byte &&& ~~~mask

/-- The byte and the bit to which a control is wired. -/
def Control.wire : Control → InputByte × UInt8
  | .coin => (.first, 0)
  | .button .two .start => (.first, 1)
  | .button .one .start => (.first, 2)
  | .button .one .shoot => (.first, 4)
  | .button .one .left => (.first, 5)
  | .button .one .right => (.first, 6)
  | .tilt => (.second, 2)
  | .button .two .shoot => (.second, 4)
  | .button .two .left => (.second, 5)
  | .button .two .right => (.second, 6)

/-- The bit of the first byte that is always set. -/
def fixedBit : UInt8 := 3

/-- The bit of the second byte that is set when coin information is hidden. -/
def coinInfoBit : UInt8 := 7

def shipsMask : UInt8 := 0x03

namespace Switches

/-- The ships per credit. A number outside three to six counts as the nearest inside. -/
def ships (s : Switches) : UInt8 :=
  if s.shipsPerCredit < 3 then 3 else if 6 < s.shipsPerCredit then 6 else s.shipsPerCredit

/-- Writes the switches into the second byte, the ships less three. -/
def apply (s : Switches) (byte : UInt8) : UInt8 :=
  let erased := byte &&& ~~~shipsMask &&& ~~~(1 <<< coinInfoBit)
  let counted := erased ||| ((s.ships - 3) &&& shipsMask)
  if s.showCoinInfo then counted else counted ||| (1 <<< coinInfoBit)

end Switches

end Intel8080.Invaders
