import Intel8080.Monitor
import Intel8080.Processor.Cost

/-!
# Running up to a cycle count

A clock counts the cycles that a processor has spent. Running up to a target steps
the processor until the clock reaches it; the last step may overshoot. Each step
costs at least four cycles, so the distance to the target shrinks and the run ends.
-/

namespace Intel8080.Monitor

variable {σ : Type}

theorem cost_of_step {m after : Monitor σ} {cost : Nat} (h : m.step = (.ok cost, after)) :
    4 ≤ cost ∧ cost ≤ 18 := by
  have outcome : m.processor.step.1 = .ok cost := by
    rw [← step_outcome, h]
  exact Processor.cost_of_step (Prod.ext outcome rfl)

/-- Steps while the clock is below the target. The result is the fault that ended
the run, if one did, and the clock. -/
def runUntil (target clock : Nat) (m : Monitor σ) : Option Fault × Nat × Monitor σ :=
  if clock < target then
    match h : m.step with
    | (.ok cost, after) =>
        have := (cost_of_step h).1
        runUntil target (clock + cost) after
    | (.error fault, after) => (some fault, clock, after)
  else
    (none, clock, m)
termination_by target - clock
decreasing_by omega

/-! ## One step at a time -/

theorem runUntil_of_ge {target clock : Nat} (m : Monitor σ) (h : target ≤ clock) :
    m.runUntil target clock = (none, clock, m) := by
  rw [runUntil, if_neg (Nat.not_lt.mpr h)]

theorem runUntil_of_step {target clock cost : Nat} {m after : Monitor σ} (below : clock < target)
    (stepped : m.step = (.ok cost, after)) :
    m.runUntil target clock = after.runUntil target (clock + cost) := by
  rw [runUntil, if_pos below]
  split
  · rename_i same
    rw [stepped] at same
    cases same
    rfl
  · rename_i same
    rw [stepped] at same
    cases same

theorem runUntil_of_fault {target clock : Nat} {fault : Fault} {m after : Monitor σ}
    (below : clock < target) (stepped : m.step = (.error fault, after)) :
    m.runUntil target clock = (some fault, clock, after) := by
  rw [runUntil, if_pos below]
  split
  · rename_i same
    rw [stepped] at same
    cases same
  · rename_i same
    rw [stepped] at same
    cases same
    rfl

end Intel8080.Monitor
