import Intel8080.Word
import Intel8080.Operation.Basic

/-!
# Registers

The register file. W and Z are the operand latches: fetching an instruction puts
its first operand byte into Z and its second into W, so that the word WZ is the
operand of a three-byte instruction.
-/

namespace Intel8080

/-- The register file, operand latches included. -/
structure Registers where
  a : UInt8
  b : UInt8
  c : UInt8
  d : UInt8
  e : UInt8
  h : UInt8
  l : UInt8
  w : UInt8
  z : UInt8
  sp : UInt16
  pc : UInt16
  deriving DecidableEq

namespace Registers

def cleared : Registers :=
  ⟨0, 0, 0, 0, 0, 0, 0, 0, 0, 0, 0⟩

def bc (r : Registers) : UInt16 := joinBytes r.b r.c

def de (r : Registers) : UInt16 := joinBytes r.d r.e

def hl (r : Registers) : UInt16 := joinBytes r.h r.l

/-- W over Z, the operand word. -/
def wz (r : Registers) : UInt16 := joinBytes r.w r.z

def setBC (r : Registers) (word : UInt16) : Registers :=
  { r with b := highByte word, c := lowByte word }

def setDE (r : Registers) (word : UInt16) : Registers :=
  { r with d := highByte word, e := lowByte word }

def setHL (r : Registers) (word : UInt16) : Registers :=
  { r with h := highByte word, l := lowByte word }

def setWZ (r : Registers) (word : UInt16) : Registers :=
  { r with w := highByte word, z := lowByte word }

def get (r : Registers) : Register → UInt8
  | .b => r.b
  | .c => r.c
  | .d => r.d
  | .e => r.e
  | .h => r.h
  | .l => r.l
  | .a => r.a

def set (r : Registers) (value : UInt8) : Register → Registers
  | .b => { r with b := value }
  | .c => { r with c := value }
  | .d => { r with d := value }
  | .e => { r with e := value }
  | .h => { r with h := value }
  | .l => { r with l := value }
  | .a => { r with a := value }

def getPair (r : Registers) : Pair → UInt16
  | .bc => r.bc
  | .de => r.de
  | .hl => r.hl
  | .sp => r.sp

def setPair (r : Registers) (word : UInt16) : Pair → Registers
  | .bc => r.setBC word
  | .de => r.setDE word
  | .hl => r.setHL word
  | .sp => { r with sp := word }

def pointer (r : Registers) : Pointer → UInt16
  | .bc => r.bc
  | .de => r.de

@[simp] theorem bc_setBC (r : Registers) (word : UInt16) : (r.setBC word).bc = word := by
  simp [bc, setBC]

@[simp] theorem de_setDE (r : Registers) (word : UInt16) : (r.setDE word).de = word := by
  simp [de, setDE]

@[simp] theorem hl_setHL (r : Registers) (word : UInt16) : (r.setHL word).hl = word := by
  simp [hl, setHL]

end Registers

end Intel8080
