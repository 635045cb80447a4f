/-!
# Reading decimal numbers

A number is one or more ASCII digits, with a plus sign in front or not, and stays
below a bound. The first character that is wrong decides which error it is.
-/

namespace Intel8080.Decimal

inductive ReadError where
  | empty
  | invalidDigit
  | tooLarge
  deriving DecidableEq

namespace ReadError

def message : ReadError → String
  | .empty => "cannot parse integer from empty string"
  | .invalidDigit => "invalid digit found in string"
  | .tooLarge => "number too large to fit in target type"

end ReadError

def digitValue? (c : Char) : Option Nat :=
  if c.isDigit then some (c.toNat - '0'.toNat) else none

def readDigits (bound : Nat) : Nat → List Char → Except ReadError Nat
  | value, [] => .ok value
  | value, c :: rest =>
      match digitValue? c with
      | none => .error .invalidDigit
      | some digit =>
          if 10 * value + digit < bound then readDigits bound (10 * value + digit) rest
          else .error .tooLarge

/-- Reads a number below a bound. A plus sign alone has no digits. -/
def read (bound : Nat) (text : String) : Except ReadError Nat :=
  match text.toList with
  | [] => .error .empty
  | ['+'] => .error .invalidDigit
  | '+' :: digits => readDigits bound 0 digits
  | digits => readDigits bound 0 digits

end Intel8080.Decimal
