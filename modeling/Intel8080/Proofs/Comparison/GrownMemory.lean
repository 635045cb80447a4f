import Intel8080.Proofs.Comparison.Responses
import Intel8080.Proofs.Execution.FaultOrder
import Intel8080.Proofs.Execution.Growth

/-!
# More memory changes nothing

A history in which no step fails for want of memory goes the same way on a larger memory.
An address has sixteen bits, so what a memory holds beyond the address space is such a
growth of what it holds inside, and no history shows or changes it.
-/

namespace Intel8080

namespace Processor

variable {σ : Type} {p q : Processor σ} (tail : ByteArray)

/-! ## Histories -/

theorem response_grown (h : p.StaysInside) : (p.grown tail).response = p.response := by
  have answers := congrArg Prod.fst (step_grown tail h)
  have watched : p.logged.StaysInside := by
    intro access failing
    rw [step_error_iff, stepFault?_logged] at failing
    exact h access (step_error_iff.mpr failing)
  have accesses := congrArg (fun result => result.2.ports.device.2) (step_grown tail watched)
  unfold response
  rw [answers]
  exact congrArg _ accesses

/-- No step of the history fails for want of memory. -/
def AllInside (p : Processor σ) (history : List Stimulus) : Prop :=
  ∀ response ∈ p.responses history, ∀ access, response.answer ≠ .error (.outOfBounds access)

theorem respond_grown {stimulus : Stimulus} (h : p.AllInside [stimulus]) :
    (p.grown tail).reply stimulus = p.reply stimulus ∧
      (p.grown tail).respond stimulus = (p.respond stimulus).grown tail := by
  cases stimulus with
  | step =>
      have inside : p.StaysInside := h p.response (by simp [reply])
      exact ⟨congrArg (fun response => [response]) (response_grown tail inside),
        congrArg Prod.snd (step_grown tail inside)⟩
  | request vector => exact ⟨rfl, rfl⟩
  | reset => exact ⟨rfl, rfl⟩
  | setInterrupts enabled => exact ⟨rfl, rfl⟩

theorem responses_grown {history : List Stimulus} (h : p.AllInside history) :
    (p.grown tail).responses history = p.responses history ∧
      (p.grown tail).after history = (p.after history).grown tail := by
  induction history generalizing p with
  | nil => exact ⟨rfl, rfl⟩
  | cons stimulus rest ih =>
      have first : p.AllInside [stimulus] := fun response among =>
        h response (by simp at among ⊢; exact .inl among)
      have later : (p.respond stimulus).AllInside rest := fun response among =>
        h response (by simp [among])
      obtain ⟨replies, next⟩ := respond_grown tail first
      obtain ⟨responses, final⟩ := ih later
      rw [responses_cons, after_cons, replies, next, responses]
      exact ⟨rfl, final⟩

theorem capacity_step (p : Processor σ) : p.step.2.memory.capacity = p.memory.capacity := by
  rw [step_eq]
  cases faulty : p.stepFault? with
  | some fault => rfl
  | none =>
      simp only [opcodeMeaning]
      split
      · rw [Operation.capacity_meaning, prepared_memory]
      · rw [prepared_memory]

theorem capacity_respond (p : Processor σ) (stimulus : Stimulus) :
    (p.respond stimulus).memory.capacity = p.memory.capacity := by
  cases stimulus with
  | step => exact p.capacity_step
  | _ => rfl

theorem capacity_after (p : Processor σ) (history : List Stimulus) :
    (p.after history).memory.capacity = p.memory.capacity := by
  induction history generalizing p with
  | nil => rfl
  | cons stimulus rest ih => rw [after_cons, ih, capacity_respond]

theorem byte?_after_grown {history : List Stimulus} {address : Nat} (h : p.AllInside history)
    (behind : p.memory.capacity ≤ address) :
    ((p.grown tail).after history).memory.byte? address =
      (p.grown tail).memory.byte? address := by
  have same := p.capacity_after history
  rw [(responses_grown tail h).2]
  change ((p.after history).memory.grown tail).byte? address = (p.memory.grown tail).byte? address
  rw [Memory.byte?_grown_of_ge tail behind, Memory.byte?_grown_of_ge tail (by omega), same]

theorem allInside_of_covering (h : Memory.addressSpace ≤ p.memory.capacity)
    (history : List Stimulus) : p.AllInside history := by
  induction history generalizing p with
  | nil =>
      intro response among
      cases among
  | cons stimulus rest ih =>
      intro response among
      rw [responses_cons, List.mem_append] at among
      rcases among with now | later
      · cases stimulus with
        | step =>
            cases List.mem_singleton.mp now
            intro access failing
            exact stepFault?_ne_outOfBounds h access (step_error_iff.mp failing)
        | _ => cases now
      · exact ih (by rwa [capacity_respond]) response later

/-! ## Two processors -/

/-- `q` is `p` with more memory: the two differ at most in bytes behind the memory of `p`. -/
structure IsPartOf (p q : Processor σ) : Prop where
  core : q.core = p.core
  ports : q.ports = p.ports
  capacity : p.memory.capacity ≤ q.memory.capacity
  bytes : ∀ address < p.memory.capacity, q.memory.byte? address = p.memory.byte? address

/-- The memories of both cover the address space, and the two differ at most in bytes that
no address reaches. -/
structure AlikeInReach (p q : Processor σ) : Prop where
  core : q.core = p.core
  ports : q.ports = p.ports
  covered : Memory.addressSpace ≤ p.memory.capacity ∧ Memory.addressSpace ≤ q.memory.capacity
  bytes : ∀ address < Memory.addressSpace, q.memory.byte? address = p.memory.byte? address

theorem isPartOf_grown (p : Processor σ) : p.IsPartOf (p.grown tail) where
  core := rfl
  ports := rfl
  capacity := by
    change p.memory.capacity ≤ (p.memory.grown tail).capacity
    rw [Memory.capacity_grown]
    omega
  bytes _ inside := Memory.byte?_grown_of_lt tail inside

theorem IsPartOf.exists_grown (h : p.IsPartOf q) : ∃ tail, q = p.grown tail := by
  obtain ⟨tail, bytes⟩ := Memory.exists_grown h.capacity h.bytes
  refine ⟨tail, ?_⟩
  obtain ⟨core, memory, ports⟩ := q
  cases h.core
  cases h.ports
  cases bytes
  rfl

theorem AlikeInReach.exists_base (h : p.AlikeInReach q) :
    ∃ base tail tail', base.memory.capacity = Memory.addressSpace ∧
      p = grown base tail ∧ q = grown base tail' := by
  obtain ⟨small, tail, size, first⟩ := Memory.exists_grown_of_le h.covered.1
  obtain ⟨small', tail', size', second⟩ := Memory.exists_grown_of_le h.covered.2
  have same : small' = small := by
    apply Memory.ext_byte? (size'.trans size.symm)
    intro address
    by_cases inside : address < Memory.addressSpace
    · have agree := h.bytes address inside
      rwa [first, second, Memory.byte?_grown_of_lt _ (by omega),
        Memory.byte?_grown_of_lt _ (by omega)] at agree
    · rw [Memory.byte?_eq_none_iff.mpr (by omega), Memory.byte?_eq_none_iff.mpr (by omega)]
  subst same
  refine ⟨⟨p.core, small', p.ports⟩, tail, tail', size', ?_, ?_⟩
  · obtain ⟨core, memory, ports⟩ := p
    cases first
    rfl
  · obtain ⟨core, memory, ports⟩ := q
    cases h.core
    cases h.ports
    cases second
    rfl

theorem alikeInReach_grown (tail tail' : ByteArray)
    (h : Memory.addressSpace ≤ p.memory.capacity) :
    (p.grown tail).AlikeInReach (p.grown tail') where
  core := rfl
  ports := rfl
  covered := by
    have first := (isPartOf_grown tail p).capacity
    have second := (isPartOf_grown tail' p).capacity
    omega
  bytes address inside := by
    change (p.memory.grown tail').byte? address = (p.memory.grown tail).byte? address
    rw [Memory.byte?_grown_of_lt _ (by omega), Memory.byte?_grown_of_lt _ (by omega)]

theorem responses_of_alikeInReach (h : p.AlikeInReach q) (history : List Stimulus) :
    q.responses history = p.responses history ∧
      (p.after history).AlikeInReach (q.after history) ∧
      ∀ address, Memory.addressSpace ≤ address →
        (p.after history).memory.byte? address = p.memory.byte? address := by
  obtain ⟨base, tail, tail', size, rfl, rfl⟩ := h.exists_base
  have inside := allInside_of_covering (Nat.le_of_eq size.symm) history
  obtain ⟨responses, final⟩ := responses_grown tail inside
  obtain ⟨responses', final'⟩ := responses_grown tail' inside
  refine ⟨responses'.trans responses.symm, ?_, ?_⟩
  · rw [final, final']
    exact alikeInReach_grown tail tail' (Nat.le_of_eq (by rw [capacity_after, size]))
  · intro address beyond
    exact byte?_after_grown tail inside (by omega)

/-- A run that never fails for want of memory is the same run on a larger memory: the
responses are the same, and so are the processors but for the bytes behind the smaller
memory, which nothing changes. Of memories that cover the address space, no run reads or
changes a byte beyond it. -/
theorem responses_of_isPartOf (h : p.IsPartOf q) (history : List Stimulus)
    (inside : p.AllInside history) :
    q.responses history = p.responses history ∧
      (p.after history).IsPartOf (q.after history) ∧
      (p.after history).memory.capacity = p.memory.capacity ∧
      (∀ address, p.memory.capacity ≤ address →
        (q.after history).memory.byte? address = q.memory.byte? address) ∧
      ∀ (r s : Processor σ) (story : List Stimulus), r.AlikeInReach s →
        s.responses story = r.responses story ∧ (r.after story).AlikeInReach (s.after story) ∧
          ∀ address, Memory.addressSpace ≤ address →
            (r.after story).memory.byte? address = r.memory.byte? address := by
  obtain ⟨tail, rfl⟩ := h.exists_grown
  obtain ⟨responses, final⟩ := responses_grown tail inside
  refine ⟨responses, ?_, p.capacity_after history, ?_, ?_⟩
  · rw [final]
    exact isPartOf_grown tail _
  · intro address behind
    exact byte?_after_grown tail inside behind
  · intro r s story alike
    exact responses_of_alikeInReach alike story

/-- SHLD 0004 in six bytes of memory, and HLT. -/
def brimful : Processor Unit where
  core := { Core.cleared with registers := { Registers.cleared with h := 0x12, l := 0x34 } }
  memory := ⟨⟨#[0x22, 0x04, 0x00, 0x76, 0x00, 0x00]⟩⟩
  ports := ⟨(), none, none⟩

theorem responses_of_isPartOf_brimful :
    brimful.IsPartOf (brimful.grown ⟨#[0xaa]⟩) ∧ brimful.AllInside [.step, .step] ∧
      (brimful.grown ⟨#[0xaa]⟩).responses [.step, .step] =
        [⟨.ok 16, []⟩, ⟨.error (.unimplementedOpcode 0x76 3), []⟩] ∧
      ((brimful.grown ⟨#[0xaa]⟩).after [.step, .step]).memory.byte? 5 = some 0x12 ∧
      ((brimful.grown ⟨#[0xaa]⟩).after [.step, .step]).memory.byte? 6 = some 0xaa := by
  have part := isPartOf_grown ⟨#[0xaa]⟩ brimful
  have shown : brimful.responses [.step, .step] =
      [⟨.ok 16, []⟩, ⟨.error (.unimplementedOpcode 0x76 3), []⟩] := rfl
  have inside : brimful.AllInside [.step, .step] := by
    intro response among access
    rw [shown] at among
    simp at among
    rcases among with rfl | rfl <;> simp
  obtain ⟨same, kept, -, behind, -⟩ := responses_of_isPartOf part [.step, .step] inside
  refine ⟨part, inside, same, ?_, ?_⟩
  · exact kept.bytes 5 (by decide +kernel)
  · exact behind 6 (by decide +kernel)

end Processor

end Intel8080
