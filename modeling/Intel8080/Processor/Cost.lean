import Intel8080.Processor.Step

/-!
# The cost of a step

A step that succeeds costs what its operation costs, with the penalty of a taken
branch: at least four cycles and at most eighteen. Loops that run a processor up
to a cycle count rest on the lower bound.
-/

namespace Intel8080

namespace Operation

variable {σ : Type}

theorem cost_of_execute {operation : Operation} {p q : Processor σ} {cost : Nat}
    (h : operation.execute p = .ok cost q) :
    cost = operation.cycles + operation.takenPenalty p.core.flags := by
  simp only [execute, bind, EStateM.bind, Exec.flags] at h
  split at h
  · cases h
    rfl
  · cases h

theorem cycles_add_takenPenalty_le (operation : Operation) (flags : Flags) :
    operation.cycles + operation.takenPenalty flags ≤ 18 := by
  have base := operation.cycles_le
  cases operation with
  | ccc condition => simp only [cycles, takenPenalty]; split <;> omega
  | rcc condition => simp only [cycles, takenPenalty]; split <;> omega
  | _ => simpa only [takenPenalty, Nat.add_zero] using base

end Operation

namespace Exec

variable {σ : Type}

theorem cost_of_dispatch {p q : Processor σ} {cost : Nat} (h : dispatch p = .ok cost q) :
    4 ≤ cost ∧ cost ≤ 18 := by
  simp only [dispatch, bind, EStateM.bind, core] at h
  cases decoded : Operation.decode p.core.opcode with
  | none =>
      rw [decoded] at h
      cases h
  | some operation =>
      rw [decoded] at h
      have paid := Operation.cost_of_execute h
      have least := operation.four_le_cycles
      have most := operation.cycles_add_takenPenalty_le p.core.flags
      omega

theorem cost_of_advance {p q : Processor σ} {cost : Nat} (h : advance p = .ok cost q) :
    4 ≤ cost ∧ cost ≤ 18 := by
  simp only [advance, bind, EStateM.bind] at h
  split at h
  · exact cost_of_dispatch h
  · cases h

end Exec

namespace Processor

variable {σ : Type}

/-- A successful step costs at least four and at most eighteen cycles. -/
theorem cost_of_step {p q : Processor σ} {cost : Nat} (h : p.step = (.ok cost, q)) :
    4 ≤ cost ∧ cost ≤ 18 := by
  unfold step at h
  split at h
  · rename_i advanced
    cases h
    exact Exec.cost_of_advance advanced
  · cases h

end Processor

end Intel8080
