import Intel8080.Proofs.Comparison.GrownMemory
import Intel8080.Proofs.Diagnostic.Course
import Intel8080.Proofs.Memory.Loading

/-!
# Diagnostic runs with more memory

More memory is a tail behind the memory that there is. An iteration that does not fail does
the same with the tail as without it, and so does a course of them, from loading the program
onwards.
-/

namespace Intel8080

namespace Diagnostic

/-! ## An iteration with more memory -/

section

variable {memory : Memory} {configuration : Configuration} {first : Bool}
  {p : Processor Unit} (tail : ByteArray)

theorem textUpTo_grown {text printed : String} {count more address : Nat} (longer : count ≤ more)
    (h : textUpTo memory text count address = some printed) :
    textUpTo (memory.grown tail) text more address = some printed := by
  induction count generalizing text more address with
  | zero => cases h
  | succ count ih =>
      obtain ⟨rest, rfl⟩ := Nat.exists_eq_add_of_le' (Nat.le_of_add_left_le longer)
      rcases Nat.lt_or_ge address memory.capacity with inside | outside
      · obtain ⟨byte, present⟩ := Memory.byte?_of_lt inside
        have same := (Memory.byte?_grown_of_lt tail inside).trans present
        simp only [textUpTo, present] at h
        simp only [textUpTo, same]
        by_cases ends : byte = terminator
        · rwa [if_pos ends] at h ⊢
        · rw [if_neg ends] at h ⊢
          exact ih (by omega) h
      · simp only [textUpTo, Memory.byte?_eq_none_iff.mpr outside] at h
        cases h

theorem textAt_grown {start : Nat} {text : String} (h : textAt memory start = .ok text) :
    textAt (memory.grown tail) start = .ok text := by
  unfold textAt at h ⊢
  rw [Memory.capacity_grown]
  by_cases inside : start < memory.capacity
  · have larger : start < memory.capacity + tail.size := by omega
    rw [if_pos inside] at h
    rw [if_pos larger]
    cases printed : textUpTo memory "" (memory.capacity - start) start with
    | none =>
        rw [printed] at h
        cases h
    | some shown =>
        rw [printed] at h
        rw [textUpTo_grown tail (by omega) printed]
        exact h
  · rw [if_neg inside] at h
    cases h

theorem consoleOutput_grown {registers : Registers} {offset : UInt16} {output : String}
    (h : consoleOutput registers memory offset = .ok output) :
    consoleOutput registers (memory.grown tail) offset = .ok output := by
  unfold consoleOutput at h ⊢
  cases function : ConsoleFunction.ofNumber registers.c with
  | printText =>
      rw [function] at h
      exact textAt_grown tail h
  | _ =>
      rw [function] at h
      exact h

theorem pc_mem_inspected (p : Processor Unit) : p.core.registers.pc ∈ inspected p := by
  simp only [inspected]
  split <;> simp

theorem inspected_grown (h : p.Inside (inspected p)) :
    inspected (p.grown tail) = inspected p := by
  have opcode := Processor.peek_grown tail (h _ (pc_mem_inspected p))
  simp only [inspected, Processor.grown_core, opcode]

theorem callsAt_grown (h : p.Inside (inspected p)) (low high : UInt8) :
    CallsAt (p.grown tail) low high ↔ CallsAt p low high := by
  have opcode := Processor.peek_grown tail (h _ (pc_mem_inspected p))
  simp only [CallsAt, Processor.grown_core, opcode]
  refine and_congr_right fun calling => ?_
  have operands : inspected p = [p.core.registers.pc, p.core.registers.pc + 1,
      p.core.registers.pc + 2] := if_pos calling
  rw [operands] at h
  have lowByte := Processor.peek_grown tail (h (p.core.registers.pc + 1) (by simp))
  have highByte := Processor.peek_grown tail (h (p.core.registers.pc + 2) (by simp))
  rw [lowByte, highByte]

def Verdict.grown : Verdict → Verdict
  | .goesOn deed next => .goesOn deed (next.grown tail)
  | verdict => verdict

theorem serveVerdict_grown (h : ∀ failure, serveVerdict configuration p ≠ .fails failure) :
    serveVerdict configuration (p.grown tail) = (serveVerdict configuration p).grown tail := by
  unfold serveVerdict at h ⊢
  cases printed : consoleOutput p.core.registers p.memory configuration.textOffset with
  | error failure =>
      rw [printed] at h
      exact absurd rfl (h _)
  | ok output =>
      have same : consoleOutput (p.grown tail).core.registers (p.grown tail).memory
          configuration.textOffset = .ok output := consoleOutput_grown tail printed
      rw [same]
      rfl

theorem executeVerdict_grown (h : ∀ failure, executeVerdict p ≠ .fails failure) :
    executeVerdict (p.grown tail) = (executeVerdict p).grown tail := by
  cases stepped : p.step with
  | mk outcome q =>
      cases outcome with
      | error fault =>
          simp only [executeVerdict, stepped] at h
          exact absurd rfl (h _)
      | ok cost =>
          have inside : p.StaysInside := by
            intro access failing
            rw [stepped] at failing
            cases failing
          have same := Processor.step_grown tail inside
          simp only [executeVerdict, same, stepped, Verdict.grown]

/-- An iteration that does not fail does the same with more memory. -/
theorem verdict_grown (h : ∀ failure, verdict configuration first p ≠ .fails failure) :
    verdict configuration first (p.grown tail) = (verdict configuration first p).grown tail := by
  unfold verdict at h ⊢
  by_cases home : p.core.registers.pc = 0 ∧ first = false
  · rw [if_pos home, if_pos (by exact home)]
    rfl
  · rw [if_neg home] at h ⊢
    rw [if_neg (by exact home)]
    cases outside : p.memory.firstOutside? (inspected p) with
    | some access =>
        rw [outside] at h
        exact absurd rfl (h _)
    | none =>
        have inside : p.Inside (inspected p) := Memory.firstOutside?_eq_none_iff.mp outside
        have still : (p.grown tail).memory.firstOutside? (inspected (p.grown tail)) = none := by
          rw [inspected_grown tail inside]
          exact Memory.firstOutside?_eq_none_iff.mpr (Processor.inside_grown tail inside)
        rw [outside] at h
        simp only [still, callsAt_grown tail inside] at h ⊢
        by_cases exits : CallsAt p 0x00 0x00
        · simp only [if_pos exits]
          rfl
        · simp only [if_neg exits] at h ⊢
          by_cases calls : CallsAt p 0x05 0x00
          · simp only [if_pos calls] at h ⊢
            exact serveVerdict_grown tail h
          · simp only [if_neg calls] at h ⊢
            exact executeVerdict_grown tail h

end

/-! ## Courses with more memory -/

section

variable {program : ByteArray} {configuration : Configuration} {memory : Memory}
  {deeds : List Deed} {p : Processor Unit}

theorem applyPatches_grown (tail : ByteArray) {patched : Memory} {patches : List (UInt16 × UInt8)}
    (h : applyPatches memory patches = .ok patched) :
    applyPatches (memory.grown tail) patches = .ok (patched.grown tail) := by
  induction patches generalizing memory with
  | nil =>
      cases h
      rfl
  | cons patch rest ih =>
      obtain ⟨address, value⟩ := patch
      simp only [applyPatches] at h ⊢
      cases written : memory.write address value with
      | error access =>
          rw [written] at h
          cases h
      | ok next =>
          rw [written] at h
          rw [Memory.write_grown tail written]
          exact ih h

theorem exists_loadedMemory_grown (loaded : loadedMemory program configuration = .ok memory)
    (limit : Nat) {size : Nat} (larger : configuration.memorySize ≤ size) :
    ∃ tail, loadedMemory program { configuration with maxSteps := limit, memorySize := size } =
      .ok (memory.grown tail) := by
  obtain ⟨tail, zeros⟩ := Memory.exists_zeroed_grown larger
  refine ⟨tail, ?_⟩
  simp only [loadedMemory] at loaded ⊢
  rw [zeros]
  cases placed : (Memory.zeroed configuration.memorySize).load program
      configuration.loadAddress.toNat with
  | error access =>
      rw [placed] at loaded
      cases loaded
  | ok next =>
      rw [placed] at loaded
      rw [Memory.load_grown tail placed]
      exact applyPatches_grown tail loaded

namespace Course

theorem grown (tail : ByteArray) (h : Course configuration memory deeds p) :
    Course configuration (memory.grown tail) deeds (p.grown tail) := by
  induction h with
  | start => exact .start
  | @next deeds deed p q _ goesOn ih =>
      refine .next ih ?_
      rw [verdict_grown tail (by simp [goesOn]), goesOn]
      rfl

end Course

end

end Diagnostic

end Intel8080
