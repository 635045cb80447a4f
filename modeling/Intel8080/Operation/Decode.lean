import Intel8080.Operation.Basic

/-!
# Decoding

An opcode is read as three fields: bits 6 and 7 select a block of the opcode
map, bits 3 to 5 and bits 0 to 2 select within it. The field of bits 3 to 5 is
also read as a pair in its two high bits and a choice in its low bit.

`decode` is `none` exactly for the opcodes that cannot be executed: the undefined
slots and HLT.
-/

namespace Intel8080

def Operand.ofCode : Nat → Operand
  | 0 => .register .b
  | 1 => .register .c
  | 2 => .register .d
  | 3 => .register .e
  | 4 => .register .h
  | 5 => .register .l
  | 6 => .memory
  | _ => .register .a

def Pair.ofCode : Nat → Pair
  | 0 => .bc
  | 1 => .de
  | 2 => .hl
  | _ => .sp

def StackPair.ofCode : Nat → StackPair
  | 0 => .bc
  | 1 => .de
  | 2 => .hl
  | _ => .psw

def Condition.ofCode : Nat → Condition
  | 0 => .notZero
  | 1 => .zero
  | 2 => .notCarry
  | 3 => .carry
  | 4 => .parityOdd
  | 5 => .parityEven
  | 6 => .plus
  | _ => .minus

def AluOp.ofCode : Nat → AluOp
  | 0 => .add
  | 1 => .adc
  | 2 => .sub
  | 3 => .sbb
  | 4 => .ana
  | 5 => .xra
  | 6 => .ora
  | _ => .cmp

namespace Operation

def indirectOfCode : Nat → Operation
  | 0 => .stax .bc
  | 1 => .ldax .bc
  | 2 => .stax .de
  | 3 => .ldax .de
  | 4 => .shld
  | 5 => .lhld
  | 6 => .sta
  | _ => .lda

def accumulatorOfCode : Nat → Operation
  | 0 => .rlc
  | 1 => .rrc
  | 2 => .ral
  | 3 => .rar
  | 4 => .daa
  | 5 => .cma
  | 6 => .stc
  | _ => .cmc

def ofLowBlock (middle low : Nat) : Option Operation :=
  match low with
  | 0 => if middle = 0 then some .nop else none
  | 1 => some (if middle % 2 = 0 then .lxi (.ofCode (middle / 2)) else .dad (.ofCode (middle / 2)))
  | 2 => some (indirectOfCode middle)
  | 3 => some (if middle % 2 = 0 then .inx (.ofCode (middle / 2)) else .dcx (.ofCode (middle / 2)))
  | 4 => some (.inr (.ofCode middle))
  | 5 => some (.dcr (.ofCode middle))
  | 6 => some (.mvi (.ofCode middle))
  | _ => some (accumulatorOfCode middle)

/-- The block of moves. Its slot from `M` to `M` is HLT. -/
def ofMoveBlock (middle low : Nat) : Option Operation :=
  if middle = 6 ∧ low = 6 then none else some (.mov (.ofCode middle) (.ofCode low))

def returnOfCode : Nat → Option Operation
  | 1 => some .ret
  | 5 => some .pchl
  | 7 => some .sphl
  | _ => none

def controlOfCode : Nat → Option Operation
  | 0 => some .jmp
  | 2 => some .output
  | 3 => some .input
  | 4 => some .xthl
  | 5 => some .xchg
  | 6 => some .di
  | 7 => some .ei
  | _ => none

def ofHighBlock (middle low : Nat) : Option Operation :=
  match low with
  | 0 => some (.rcc (.ofCode middle))
  | 1 => if middle % 2 = 0 then some (.pop (.ofCode (middle / 2))) else returnOfCode middle
  | 2 => some (.jcc (.ofCode middle))
  | 3 => controlOfCode middle
  | 4 => some (.ccc (.ofCode middle))
  | 5 =>
      if middle % 2 = 0 then some (.push (.ofCode (middle / 2)))
      else if middle = 1 then some .call
      else none
  | 6 => some (.aluImmediate (.ofCode middle))
  | _ => some (.rst (Fin.ofNat 8 middle))

/-- The operation that an opcode stands for. -/
def decode (opcode : UInt8) : Option Operation :=
  let middle := opcode.toNat / 8 % 8
  let low := opcode.toNat % 8
  match opcode.toNat / 64 with
  | 0 => ofLowBlock middle low
  | 1 => ofMoveBlock middle low
  | 2 => some (.alu (.ofCode middle) (.ofCode low))
  | _ => ofHighBlock middle low

end Operation

end Intel8080
