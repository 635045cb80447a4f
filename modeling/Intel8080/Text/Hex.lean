/-!
# Hexadecimal text

Addresses and bytes are shown in hexadecimal, padded on the left with zeros to a
least width. A number that needs more digits keeps all of them.
-/

namespace Intel8080.Hex

/-- The digits of a number in base 16, lowercase, at least `width` of them. -/
def digits (width n : Nat) : List Char :=
  (Nat.toDigits 16 n).leftpad width '0'

def lower (width n : Nat) : String :=
  String.ofList (digits width n)

def upper (width n : Nat) : String :=
  String.ofList ((digits width n).map Char.toUpper)

def literal (width n : Nat) : String :=
  "0x" ++ lower width n

def byte (value : UInt8) : String :=
  upper 2 value.toNat

def word (value : UInt16) : String :=
  upper 4 value.toNat

def byteLiteral (value : UInt8) : String :=
  literal 2 value.toNat

def wordLiteral (value : UInt16) : String :=
  literal 4 value.toNat

end Intel8080.Hex
