import Intel8080.Processor.Basic

/-!
# Register dumps

Two texts of a processor: the register pairs in hexadecimal, the accumulator
paired with the packed flags; and every field by name, in decimal.
-/

namespace Intel8080

namespace Core

def dump (core : Core) : String :=
  let r := core.registers
  s!"AF: {Hex.word (joinBytes r.a core.flags.pack)} BC: {Hex.word r.bc} DE: {Hex.word r.de} " ++
    s!"HL: {Hex.word r.hl} PC: {Hex.word r.pc} SP: {Hex.word r.sp}"

theorem exists_pc_in_dump (core : Core) :
    ∃ before after,
      core.dump = before ++ s!" PC: {Hex.word core.registers.pc} SP: " ++ after := by
  let r := core.registers
  refine ⟨s!"AF: {Hex.word (joinBytes r.a core.flags.pack)} BC: {Hex.word r.bc} " ++
    s!"DE: {Hex.word r.de} HL: {Hex.word r.hl}", Hex.word r.sp, ?_⟩
  simp only [dump, String.append_assoc]
  rfl

def disassembly (core : Core) : String :=
  (Opcode.entry core.opcode).render core.registers.z core.registers.w

end Core

namespace Registers

def debugText (r : Registers) : String :=
  Record.complete "Registers" [("a", s!"{r.a}"), ("b", s!"{r.b}"), ("c", s!"{r.c}"),
    ("d", s!"{r.d}"), ("e", s!"{r.e}"), ("h", s!"{r.h}"), ("l", s!"{r.l}"), ("w", s!"{r.w}"),
    ("z", s!"{r.z}"), ("sp", s!"{r.sp}"), ("pc", s!"{r.pc}")]

end Registers

namespace Flags

def debugText (f : Flags) : String :=
  Record.complete "Flags" [("s", s!"{f.sign}"), ("z", s!"{f.zero}"), ("ac", s!"{f.auxCarry}"),
    ("p", s!"{f.parity}"), ("cy", s!"{f.carry}")]

end Flags

namespace Processor

variable {σ : Type}

def pendingText : Option UInt8 → String
  | some vector => s!"Some({vector})"
  | none => "None"

def debugText (p : Processor σ) : String :=
  Record.complete "Cpu" [("regs", p.core.registers.debugText), ("flags", p.core.flags.debugText),
    ("inte", s!"{p.core.interruptsEnabled}"), ("ir", s!"{p.core.opcode}"),
    ("pending_interrupt", pendingText p.core.pendingInterrupt),
    ("memory", p.memory.debugText), ("read_port", s!"{p.ports.input.isSome}"),
    ("write_port", s!"{p.ports.output.isSome}")]

end Processor

end Intel8080
