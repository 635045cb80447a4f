import Intel8080.Processor.Core

/-!
# Console calls

A diagnostic program prints through the operating system's console, called with a
function number in C. Function 2 prints the character in E. Function 9 prints the
characters from the address in DE up to a dollar sign; some programs keep a few
bytes in front of the text, so an offset is added to the address.
-/

namespace Intel8080.Diagnostic

inductive TextFailure where
  | outsideMemory (start : Nat)
  | unterminated (start : Nat)
  deriving DecidableEq

namespace TextFailure

def message : TextFailure → String
  | .outsideMemory start => s!"string address {Hex.literal 4 start} is outside memory"
  | .unterminated start => s!"unterminated string at {Hex.literal 4 start}"

end TextFailure

def characterOf (byte : UInt8) : Char :=
  Char.ofNat byte.toNat

def terminator : UInt8 := 0x24

/-- Appends to `text` the characters of the next bytes up to the terminator, if
there is one among the next `count` bytes. -/
def textUpTo (memory : Memory) (text : String) : (count address : Nat) → Option String
  | 0, _ => none
  | count + 1, address =>
      match memory.byte? address with
      | none => none
      | some byte =>
          if byte = terminator then some text
          else textUpTo memory (text.push (characterOf byte)) count (address + 1)

def textAt (memory : Memory) (start : Nat) : Except TextFailure String :=
  if start < memory.capacity then
    match textUpTo memory "" (memory.capacity - start) start with
    | some text => .ok text
    | none => .error (.unterminated start)
  else
    .error (.outsideMemory start)

inductive ConsoleFunction where
  | printCharacter
  | printText
  /-- A function that is not provided; the call does nothing. -/
  | other (number : UInt8)
  deriving DecidableEq

def ConsoleFunction.ofNumber (number : UInt8) : ConsoleFunction :=
  match number.toNat with
  | 2 => .printCharacter
  | 9 => .printText
  | _ => .other number

def consoleOutput (registers : Registers) (memory : Memory) (textOffset : UInt16) :
    Except TextFailure String :=
  match ConsoleFunction.ofNumber registers.c with
  | .printCharacter => .ok (String.singleton (characterOf registers.e))
  | .printText => textAt memory (registers.de.toNat + textOffset.toNat)
  | .other _ => .ok ""

end Intel8080.Diagnostic
