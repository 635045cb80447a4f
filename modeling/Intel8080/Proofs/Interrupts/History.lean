import Intel8080.Proofs.Interrupts.Acceptance

/-!
# Histories of one slot

Requests, steps, resets and changes of INTE may come in any order. Positions in the
history tell equal requests apart: the slot holds the latest request unless it has been
emptied since, and each request is taken by at most one step.
-/

namespace Intel8080

/-- What can happen to a processor. The host may set INTE at any time. -/
inductive Stimulus where
  | request (vector : UInt8)
  | step
  | reset
  | setInterrupts (enabled : Bool)
  deriving DecidableEq

namespace Processor

variable {σ : Type}

def respond (p : Processor σ) : Stimulus → Processor σ
  | .request vector => p.requestInterrupt vector
  | .step => p.step.2
  | .reset => p.reset
  | .setInterrupts enabled => { p with core := { p.core with interruptsEnabled := enabled } }

def atTime (p : Processor σ) (history : List Stimulus) (k : Nat) : Processor σ :=
  (history.take k).foldl respond p

/-- Request number `i` is the latest of those before time `k`. -/
def LatestRequest (history : List Stimulus) (i k : Nat) (vector : UInt8) : Prop :=
  i < k ∧ history[i]? = some (.request vector) ∧
    ∀ j other, i < j → j < k → history[j]? ≠ some (.request other)

section

variable (p : Processor σ) (history : List Stimulus)

/-- Number `k` is a step that dispatches a request and succeeds. -/
def AcceptsAt (k : Nat) (vector : UInt8) : Prop :=
  history[k]? = some .step ∧ (p.atTime history k).Dispatches vector ∧
    ∃ cost, (p.atTime history k).step.1 = .ok cost

/-- Number `k` leaves no request behind: a reset, or a successful acceptance. -/
def EmptiesAt (k : Nat) : Prop :=
  history[k]? = some .reset ∨ ∃ vector, p.AcceptsAt history k vector

/-- Request number `i` still waits at time `k`. -/
def WaitsAt (i k : Nat) (vector : UInt8) : Prop :=
  LatestRequest history i k vector ∧ ∀ j, i < j → j < k → ¬ p.EmptiesAt history j

/-- Number `j` accepts while number `i` is the latest request. -/
def Consumes (i j : Nat) : Prop :=
  (∃ vector, LatestRequest history i j vector) ∧ ∃ vector, p.AcceptsAt history j vector

end

variable {p : Processor σ} {history : List Stimulus} {i j k : Nat} {vector : UInt8}

/-! ## One stimulus at a time -/

theorem atTime_succ {stimulus : Stimulus} (h : history[k]? = some stimulus) :
    p.atTime history (k + 1) = (p.atTime history k).respond stimulus := by
  rw [atTime, List.take_add_one, h, List.foldl_append]
  rfl

theorem atTime_succ_of_none (h : history[k]? = none) :
    p.atTime history (k + 1) = p.atTime history k := by
  rw [atTime, List.take_add_one, h, List.foldl_append]
  rfl

theorem pendingInterrupt_of_emptiesAt (h : p.EmptiesAt history k) :
    (p.atTime history (k + 1)).core.pendingInterrupt = none := by
  rcases h with reset | ⟨vector, stepping, dispatching, cost, succeeds⟩
  · rw [atTime_succ reset]
    rfl
  · rw [atTime_succ stepping]
    exact pendingInterrupt_of_dispatch dispatching (Prod.ext succeeds rfl)

theorem pendingInterrupt_of_unaccepted (stepping : history[k]? = some .step)
    (h : ∀ vector, ¬ p.AcceptsAt history k vector) :
    (p.atTime history k).step.2.core.pendingInterrupt =
      (p.atTime history k).core.pendingInterrupt := by
  cases stepped : (p.atTime history k).step with
  | mk outcome q =>
      cases outcome with
      | error fault =>
          rw [eq_of_step_error stepped]
      | ok cost =>
          have fetching : (p.atTime history k).core.acceptable = none := by
            rw [Option.eq_none_iff_forall_ne_some]
            intro vector waiting
            exact h vector ⟨stepping, dispatches_iff_acceptable.mpr waiting, cost, by rw [stepped]⟩
          rw [pendingInterrupt_of_step stepped, fetching]
          rfl

theorem pendingInterrupt_of_quiet (unasked : ∀ vector, history[k]? ≠ some (.request vector))
    (kept : ¬ p.EmptiesAt history k) :
    (p.atTime history (k + 1)).core.pendingInterrupt =
      (p.atTime history k).core.pendingInterrupt := by
  cases present : history[k]? with
  | none => rw [atTime_succ_of_none present]
  | some stimulus =>
      rw [atTime_succ present]
      cases stimulus with
      | request vector => exact absurd present (unasked vector)
      | step =>
          exact pendingInterrupt_of_unaccepted present fun vector accepts =>
            kept (.inr ⟨vector, accepts⟩)
      | reset => exact absurd (.inl present) kept
      | setInterrupts enabled => rfl

/-! ## Waiting requests -/

theorem not_emptiesAt_of_request (h : history[k]? = some (.request vector)) :
    ¬ p.EmptiesAt history k := by
  rintro (reset | ⟨other, stepping, -⟩)
  · cases h.symm.trans reset
  · cases h.symm.trans stepping

theorem waitsAt_succ_of_request {asked : UInt8} (h : history[k]? = some (.request asked)) :
    p.WaitsAt history i (k + 1) vector ↔ i = k ∧ vector = asked := by
  constructor
  · rintro ⟨⟨before, asks, latest⟩, -⟩
    have last : i = k := by
      by_cases earlier : i < k
      · exact absurd h (latest k asked earlier (Nat.lt_succ_self k))
      · omega
    subst last
    cases h.symm.trans asks
    exact ⟨rfl, rfl⟩
  · rintro ⟨rfl, rfl⟩
    refine ⟨⟨Nat.lt_succ_self i, h, ?_⟩, ?_⟩
    · intro j other after before
      omega
    · intro j after before
      omega

theorem not_waitsAt_succ_of_emptiesAt (h : p.EmptiesAt history k) :
    ¬ p.WaitsAt history i (k + 1) vector := by
  rintro ⟨⟨before, asks, -⟩, unserved⟩
  by_cases earlier : i < k
  · exact unserved k earlier (Nat.lt_succ_self k) h
  · have last : i = k := by omega
    subst last
    exact not_emptiesAt_of_request asks h

theorem waitsAt_succ_of_quiet (unasked : ∀ vector, history[k]? ≠ some (.request vector))
    (kept : ¬ p.EmptiesAt history k) :
    p.WaitsAt history i (k + 1) vector ↔ p.WaitsAt history i k vector := by
  constructor
  · rintro ⟨⟨before, asks, latest⟩, unserved⟩
    have earlier : i < k := by
      by_cases last : i = k
      · subst last
        exact absurd asks (unasked vector)
      · omega
    refine ⟨⟨earlier, asks, ?_⟩, ?_⟩
    · intro j other after before
      exact latest j other after (by omega)
    · intro j after before
      exact unserved j after (by omega)
  · rintro ⟨⟨before, asks, latest⟩, unserved⟩
    refine ⟨⟨by omega, asks, ?_⟩, ?_⟩
    · intro j other after inside
      by_cases last : j = k
      · subst last
        exact unasked other
      · exact latest j other after (by omega)
    · intro j after inside
      by_cases last : j = k
      · subst last
        exact kept
      · exact unserved j after (by omega)

/-! ## Whole histories -/

/-- After any history that starts with an empty slot, the slot holds the request that
still waits, and is empty if none does. -/
theorem pendingInterrupt_atTime_iff (empty : p.core.pendingInterrupt = none) (k : Nat) :
    (p.atTime history k).core.pendingInterrupt = some vector ↔
      ∃ i, p.WaitsAt history i k vector := by
  induction k with
  | zero =>
      constructor
      · intro full
        cases empty.symm.trans full
      · rintro ⟨i, ⟨before, -⟩, -⟩
        omega
  | succ k ih =>
      by_cases asked : ∃ other, history[k]? = some (.request other)
      · obtain ⟨other, request⟩ := asked
        rw [atTime_succ request]
        simp only [waitsAt_succ_of_request request]
        constructor
        · intro full
          cases full
          exact ⟨k, rfl, rfl⟩
        · rintro ⟨i, rfl, rfl⟩
          rfl
      · rw [not_exists] at asked
        by_cases emptied : p.EmptiesAt history k
        · rw [pendingInterrupt_of_emptiesAt emptied]
          constructor
          · intro full
            cases full
          · rintro ⟨i, waits⟩
            exact absurd waits (not_waitsAt_succ_of_emptiesAt emptied)
        · rw [pendingInterrupt_of_quiet asked emptied, ih]
          simp only [waitsAt_succ_of_quiet asked emptied]

/-- An acceptance takes the latest request, and executes its opcode. -/
theorem waitsAt_of_acceptsAt (empty : p.core.pendingInterrupt = none)
    (h : p.AcceptsAt history j vector) : ∃ i, p.WaitsAt history i j vector := by
  obtain ⟨-, dispatching, -⟩ := h
  exact (pendingInterrupt_atTime_iff empty j).mp (dispatches_iff.mp dispatching).2

theorem latestRequest_unique {i' : Nat} {vector' : UInt8}
    (h : LatestRequest history i k vector) (h' : LatestRequest history i' k vector') :
    i = i' ∧ vector = vector' := by
  obtain ⟨before, asks, latest⟩ := h
  obtain ⟨before', asks', latest'⟩ := h'
  have same : i = i' := by
    rcases Nat.lt_trichotomy i i' with earlier | same | later
    · exact absurd asks' (latest i' vector' earlier before')
    · exact same
    · exact absurd asks (latest' i vector later before)
  subst same
  cases asks.symm.trans asks'
  exact ⟨rfl, rfl⟩

theorem consumes_injective {j' : Nat} (empty : p.core.pendingInterrupt = none)
    (h : p.Consumes history i j) (h' : p.Consumes history i j') : j = j' := by
  have ordered : ∀ {a b : Nat}, p.Consumes history i a → p.Consumes history i b → ¬ a < b := by
    rintro a b ⟨⟨_, before, -⟩, _, accepts⟩ ⟨⟨_, latest⟩, _, acceptsLater⟩ earlier
    obtain ⟨other, found, unserved⟩ := waitsAt_of_acceptsAt empty acceptsLater
    obtain ⟨rfl, rfl⟩ := latestRequest_unique found latest
    exact unserved a before earlier (.inr ⟨_, accepts⟩)
  have notBefore := ordered h h'
  have notAfter := ordered h' h
  omega

/-- The protocol of the slot, after any history that starts with an empty one. The slot
holds the request that waits. A step dispatches under INTE and a full slot only, and then
executes the opcode in the slot on the registers as they stand, W and Z included. An
acceptance takes the latest request, which no other step takes. Steps that start with INTE
clear and steps that fail take nothing, and only EI and DI change INTE. -/
theorem one_slot_protocol (empty : p.core.pendingInterrupt = none) (history : List Stimulus) :
    (∀ k vector, (p.atTime history k).core.pendingInterrupt = some vector ↔
      ∃ i, p.WaitsAt history i k vector) ∧
    (∀ k vector, (p.atTime history k).Dispatches vector ↔
      (p.atTime history k).core.interruptsEnabled = true ∧
        (p.atTime history k).core.pendingInterrupt = some vector) ∧
    (∀ k vector, (p.atTime history k).Dispatches vector →
      (p.atTime history k).step =
        match ((p.atTime history k).accepted vector).opcodeFault? with
        | some fault => (.error fault, p.atTime history k)
        | none => (.ok ((p.atTime history k).accepted vector).opcodeMeaning.1,
            ((p.atTime history k).accepted vector).opcodeMeaning.2)) ∧
    (∀ k vector cost q, (p.atTime history k).Dispatches vector →
      (p.atTime history k).step = (.ok cost, q) →
      (∃ operation, (Opcode.entry vector).operation? = some operation ∧
        q = operation.meaning ((p.atTime history k).accepted vector)) ∧
      q.core.registers.w = (p.atTime history k).core.registers.w ∧
      q.core.registers.z = (p.atTime history k).core.registers.z) ∧
    (∀ j vector, p.AcceptsAt history j vector →
      ∃ i, LatestRequest history i j vector ∧ p.Consumes history i j) ∧
    (∀ i j j', p.Consumes history i j → p.Consumes history i j' → j = j') ∧
    (∀ i k j other, i < k → k < j → history[k]? = some (.request other) →
      ¬ p.Consumes history i j) ∧
    (∀ k, history[k]? = some .step → (p.atTime history k).core.interruptsEnabled = false →
      (p.atTime history (k + 1)).core.pendingInterrupt =
        (p.atTime history k).core.pendingInterrupt) ∧
    (∀ k fault, history[k]? = some .step → (p.atTime history k).step.1 = .error fault →
      p.atTime history (k + 1) = p.atTime history k) ∧
    (∀ k cost, history[k]? = some .step → (p.atTime history k).step.1 = .ok cost →
      ∃ operation, (p.atTime history k).prepared.operation? = some operation ∧
        (p.atTime history (k + 1)).core.interruptsEnabled =
          operation.interruptsAfter (p.atTime history k).core.interruptsEnabled) := by
  refine ⟨fun k vector => pendingInterrupt_atTime_iff empty k, fun k vector => dispatches_iff,
    fun k vector dispatching => step_of_dispatches dispatching, ?_, ?_,
    fun i j j' => consumes_injective empty, ?_, ?_, ?_, ?_⟩
  · intro k vector cost q dispatching stepped
    obtain ⟨operation, line, -, after, latches⟩ := operation_of_dispatch dispatching stepped
    exact ⟨⟨operation, line, after⟩, latches⟩
  · intro j vector accepts
    obtain ⟨i, latest, -⟩ := waitsAt_of_acceptsAt empty accepts
    exact ⟨i, latest, ⟨vector, latest⟩, vector, accepts⟩
  · rintro i k j other older replaced request ⟨⟨vector, -, -, latest⟩, -⟩
    exact latest k other older replaced request
  · intro k stepping disabled
    rw [atTime_succ stepping]
    exact pendingInterrupt_of_disabled disabled
  · intro k fault stepping failing
    rw [atTime_succ stepping]
    exact step_error_keeps failing
  · intro k cost stepping succeeds
    rw [atTime_succ stepping]
    exact interruptsEnabled_of_step (Prod.ext succeeds rfl)

def stackless : Processor Unit :=
  .new ⟨⟨#[0x00]⟩⟩ ⟨(), none, none⟩

/-- A restart waits while INTE is clear, then fails, and is replaced by a NOP. -/
def crowdedHistory : List Stimulus :=
  [.request 0xcf, .step, .setInterrupts true, .step, .request 0x00, .step, .step]

theorem one_slot_protocol_crowdedHistory :
    (∃ i, stackless.WaitsAt crowdedHistory i 4 0xcf) ∧
      (∃ i, LatestRequest crowdedHistory i 5 0x00 ∧ stackless.Consumes crowdedHistory i 5) ∧
      ¬ stackless.Consumes crowdedHistory 0 5 ∧
      ∀ j, stackless.Consumes crowdedHistory 4 j → j = 5 := by
  obtain ⟨slot, dispatch, -, -, taken, once, replaced, -⟩ :=
    one_slot_protocol (p := stackless) rfl crowdedHistory
  have accepts : stackless.AcceptsAt crowdedHistory 5 0x00 :=
    ⟨rfl, (dispatch 5 0x00).mpr ⟨rfl, rfl⟩, 4, rfl⟩
  have asked : LatestRequest crowdedHistory 4 5 0x00 :=
    ⟨by decide, rfl, fun j other after before => by omega⟩
  refine ⟨(slot 4 0xcf).mp rfl, taken 5 0x00 accepts, ?_, ?_⟩
  · exact replaced 0 4 5 0x00 (by decide) (by decide) rfl
  · intro j consumes
    exact once 4 j 5 consumes ⟨⟨0x00, asked⟩, 0x00, accepts⟩

end Processor

end Intel8080
