/-!
# Operations

The instructions that the processor can carry out, named by their mnemonics. An
operand that the opcode itself selects is a parameter; operand bytes that follow
the opcode are not, since the processor finds them in its operand latches.
-/

namespace Intel8080

inductive Register where
  | b
  | c
  | d
  | e
  | h
  | l
  | a
  deriving DecidableEq

/-- A byte operand: a register, or `M`, the byte of memory at HL. -/
inductive Operand where
  | register (r : Register)
  | memory
  deriving DecidableEq

inductive Pair where
  | bc
  | de
  | hl
  | sp
  deriving DecidableEq

/-- The words that PUSH and POP move. `psw` is the accumulator over the packed
flags. -/
inductive StackPair where
  | bc
  | de
  | hl
  | psw
  deriving DecidableEq

/-- The pairs through which STAX and LDAX address memory. -/
inductive Pointer where
  | bc
  | de
  deriving DecidableEq

inductive Condition where
  | notZero
  | zero
  | notCarry
  | carry
  | parityOdd
  | parityEven
  | plus
  | minus
  deriving DecidableEq

inductive AluOp where
  | add
  | adc
  | sub
  | sbb
  | ana
  | xra
  | ora
  | cmp
  deriving DecidableEq

/-- The instructions that have a meaning. HLT is not among them: there is no
halted state. -/
inductive Operation where
  | nop
  | lxi (pair : Pair)
  | stax (pointer : Pointer)
  | ldax (pointer : Pointer)
  | shld
  | lhld
  | sta
  | lda
  | inx (pair : Pair)
  | dcx (pair : Pair)
  | dad (pair : Pair)
  | inr (target : Operand)
  | dcr (target : Operand)
  | mvi (target : Operand)
  | rlc
  | rrc
  | ral
  | rar
  | daa
  | cma
  | stc
  | cmc
  | mov (target source : Operand)
  | alu (op : AluOp) (source : Operand)
  | aluImmediate (op : AluOp)
  | jmp
  | jcc (condition : Condition)
  | call
  | ccc (condition : Condition)
  | ret
  | rcc (condition : Condition)
  | pchl
  /-- Call the fixed address `8 * n`. -/
  | rst (n : Fin 8)
  | push (source : StackPair)
  | pop (target : StackPair)
  | xthl
  | xchg
  | sphl
  | input
  | output
  | di
  | ei
  deriving DecidableEq

namespace Operation

/-- Clock cycles of an operation, a conditional call or return counted as not
taken. An operand in memory costs more than one in a register. -/
def cycles : Operation → Nat
  | .nop => 4
  | .lxi _ => 10
  | .stax _ => 7
  | .ldax _ => 7
  | .shld => 16
  | .lhld => 16
  | .sta => 13
  | .lda => 13
  | .inx _ => 5
  | .dcx _ => 5
  | .dad _ => 10
  | .inr (.register _) => 5
  | .inr .memory => 10
  | .dcr (.register _) => 5
  | .dcr .memory => 10
  | .mvi (.register _) => 7
  | .mvi .memory => 10
  | .rlc => 4
  | .rrc => 4
  | .ral => 4
  | .rar => 4
  | .daa => 4
  | .cma => 4
  | .stc => 4
  | .cmc => 4
  | .mov (.register _) (.register _) => 5
  | .mov _ _ => 7
  | .alu _ (.register _) => 4
  | .alu _ .memory => 7
  | .aluImmediate _ => 7
  | .jmp => 10
  | .jcc _ => 10
  | .call => 17
  | .ccc _ => 11
  | .ret => 10
  | .rcc _ => 5
  | .pchl => 5
  | .rst _ => 11
  | .push _ => 11
  | .pop _ => 10
  | .xthl => 18
  | .xchg => 4
  | .sphl => 5
  | .input => 10
  | .output => 10
  | .di => 4
  | .ei => 4

theorem four_le_cycles (operation : Operation) : 4 ≤ operation.cycles := by
  unfold cycles
  split <;> decide

theorem cycles_le (operation : Operation) : operation.cycles ≤ 18 := by
  unfold cycles
  split <;> decide

end Operation

end Intel8080
