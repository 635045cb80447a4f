import Mathlib.Algebra.Order.Floor.Div
import Intel8080.Proofs.Execution.FaultOrder
import Intel8080.Proofs.Interrupts.Acceptance
import Intel8080.Proofs.Invaders.WordCounter

/-!
# The length of a run

A run to a cycle of the frame gets nearer with every step, by four cycles at least, since an
opcode that would cost nothing has no meaning and fails. No step costs more than eighteen, so a
run that gets there is at most seventeen cycles late, and a counter of 32 bits has room for them
behind any target up to 2 ^ 32 - 18. A run that fails stands where the failing step has begun.
-/

namespace Intel8080

/-! ## What an opcode costs -/

/-- The cycles of an opcode, a branch that takes its penalty left out. An opcode that cannot be
executed has none. -/
def Opcode.cycles (opcode : UInt8) : Nat :=
  match Operation.decode opcode with
  | some operation => operation.cycles
  | none => 0

theorem Opcode.cycles_of_decode {opcode : UInt8} {operation : Operation}
    (decoded : Operation.decode opcode = some operation) :
    Opcode.cycles opcode = operation.cycles := by
  rw [Opcode.cycles, decoded]

theorem Opcode.cycles_eq_zero_iff (opcode : UInt8) :
    Opcode.cycles opcode = 0 ↔ Opcode.Refused opcode := by
  rw [← Operation.decode_eq_none_iff]
  cases decoded : Operation.decode opcode with
  | none => simp [Opcode.cycles, decoded]
  | some operation =>
      have least := operation.four_le_cycles
      rw [Opcode.cycles_of_decode decoded]
      constructor
      · intro free
        omega
      · intro unknown
        cases unknown

theorem Operation.takenPenalty_cases (operation : Operation) (flags : Flags) :
    operation.takenPenalty flags = 0 ∨ operation.takenPenalty flags = 6 := by
  unfold takenPenalty
  split
  · split <;> simp
  · split <;> simp
  · exact .inl rfl

namespace Processor

variable {σ : Type} {p q ready : Processor σ} {opcode : UInt8} {cost : Nat}

theorem Readies.step_of_refused (readies : p.Readies opcode ready)
    (refused : Opcode.Refused opcode) :
    p.step = (.error (.unimplementedOpcode opcode p.core.registers.pc), p) := by
  obtain ⟨rfl, prepares⟩ := readies.eq_prepared
  obtain rfl := readies.opcode_eq
  apply step_of_stepFault?
  rw [stepFault?, prepares, Option.none_or, opcodeFault?, if_pos refused, prepared_opcodeAddress]

theorem Readies.cost_cases (readies : p.Readies opcode ready) (stepped : p.step = (.ok cost, q)) :
    cost = Opcode.cycles opcode ∨ cost = Opcode.cycles opcode + 6 := by
  cases decoded : Operation.decode opcode with
  | none =>
      have refused := (Operation.decode_eq_none_iff opcode).mp decoded
      cases stepped.symm.trans (readies.step_of_refused refused)
  | some operation =>
      obtain ⟨rfl, -⟩ := readies.eq_prepared
      obtain rfl := readies.opcode_eq
      have paid := (meaning_of_step stepped decoded).1
      rw [← operation.cycles_add_takenPenalty] at paid
      rw [Opcode.cycles_of_decode decoded, paid]
      rcases operation.takenPenalty_cases p.core.flags with none | taken
      · exact .inl (by rw [none]; rfl)
      · exact .inr (by rw [taken])

/-- The price of a step. The opcode that it readies may be fetched from memory or put on the bus
by an interrupt. -/
structure Charges (p : Processor σ) : Prop where
  bounds : ∀ cost q, p.step = (.ok cost, q) → 4 ≤ cost ∧ cost ≤ 18
  listed : ∀ opcode ready cost q, p.Readies opcode ready → p.step = (.ok cost, q) →
    cost = Opcode.cycles opcode ∨ cost = Opcode.cycles opcode + 6
  unlisted : ∀ opcode ready, p.Readies opcode ready → Opcode.cycles opcode = 0 →
    p.step = (.error (.unimplementedOpcode opcode p.core.registers.pc), p)

theorem charges (p : Processor σ) : p.Charges where
  bounds _ _ stepped := cost_of_step stepped
  listed _ _ _ _ readies stepped := readies.cost_cases stepped
  unlisted opcode _ readies free :=
    readies.step_of_refused ((Opcode.cycles_eq_zero_iff opcode).mp free)

end Processor

/-! ## The steps of a run -/

namespace Approaches

variable {σ : Type} {target clock last : Nat} {p final : Processor σ} {events : List (Event σ)}
  {fault? : Option Fault}

/-- Every step uses up four cycles of the distance to the target, and one is enough for the last. -/
theorem four_mul_length_le (h : Approaches target clock p events fault? last final) :
    4 * events.length ≤ target - clock + 3 := by
  induction h with
  | reached _ => simp
  | step below stepped _ ih =>
      have price := Processor.cost_of_step stepped
      rw [List.length_cons]
      omega
  | fault below _ =>
      rw [List.length_singleton]
      omega

theorem length_le (h : Approaches target clock p events fault? last final) :
    events.length ≤ (target - clock) ⌈/⌉ 4 := by
  have paid := h.four_mul_length_le
  rw [Nat.ceilDiv_eq_add_pred_div]
  omega

theorem elapsed_lt_of_split (h : Approaches target clock p events fault? last final)
    {earlier later : List (Event σ)} {event : Event σ}
    (split : events = earlier ++ event :: later) :
    clock + Event.elapsed earlier < target := by
  induction h generalizing earlier with
  | reached _ => simp at split
  | step below _ _ ih =>
      cases earlier with
      | nil => exact below
      | cons first earlier =>
          injection split with same rest
          have next := ih rest
          rw [← same, Event.elapsed_cons, Event.cycles]
          omega
  | fault below _ =>
      cases earlier with
      | nil => exact below
      | cons first earlier => simp at split

theorem step_of_mem (h : Approaches target clock p events fault? last final)
    {before : Processor σ} {cost : Nat} (listed : .step before cost ∈ events) :
    ∃ after, before.step = (.ok cost, after) := by
  induction h with
  | reached _ => cases listed
  | step _ stepped _ ih =>
      rcases List.mem_cons.mp listed with same | later
      · cases same
        exact ⟨_, stepped⟩
      · exact ih later
  | fault _ _ => simp at listed

theorem addsInWords (h : Approaches target clock p events fault? last final)
    (room : target ≤ 2 ^ 32 - 18) : AddsInWords clock events := by
  rintro earlier before cost later rfl
  have below := h.elapsed_lt_of_split rfl
  obtain ⟨after, stepped⟩ := h.step_of_mem (List.mem_append_right earlier List.mem_cons_self)
  have price := Processor.cost_of_step stepped
  omega

theorem failing_step {cause : Fault}
    (h : Approaches target clock p events (some cause) last final) :
    (∃ earlier, events = earlier ++ [.fault final cause] ∧
        last = clock + Event.elapsed earlier) ∧
      final.step = (.error cause, final) := by
  generalize failing : some cause = fault? at h
  induction h with
  | reached _ => cases failing
  | @step clock cost last p q final events fault? _ _ _ ih =>
      obtain ⟨⟨earlier, split, counted⟩, failed⟩ := ih failing
      refine ⟨⟨.step p cost :: earlier, by rw [split]; rfl, ?_⟩, failed⟩
      rw [Event.elapsed_cons, Event.cycles]
      omega
  | fault _ failed =>
      cases failing
      cases Processor.eq_of_step_error failed
      exact ⟨⟨[], rfl, rfl⟩, failed⟩

end Approaches

theorem Monitor.exists_approaches {σ : Type} (m : Monitor σ) (target clock : Nat) :
    ∃ events fault? last after, m.runUntil target clock = (fault?, last, after) ∧
      Approaches target clock m.processor events fault? last after.processor :=
  ⟨_, _, _, _, rfl, (m.tracedUntil_spec target clock).2⟩

/-- How a run to a target ends, with the steps that it takes on the way. -/
structure EndsInTime {σ : Type} (target : UInt32) (clock : Nat) (p : Processor σ)
    (events : List (Event σ)) (fault? : Option Fault) (last : Nat) (final : Processor σ) :
    Prop where
  steps : Approaches target.toNat clock p events fault? last final
  length_le : events.length ≤ (target.toNat - clock) ⌈/⌉ 4
  counted : last = clock + Event.elapsed events
  idle : target.toNat ≤ clock → events = [] ∧ fault? = none ∧ last = clock ∧ final = p
  reached : fault? = none → clock < target.toNat →
    target.toNat ≤ last ∧ last ≤ target.toNat + 17
  stopped : ∀ cause, fault? = some cause → last < target.toNat ∧
    (∃ earlier, events = earlier ++ [.fault final cause] ∧
      last = clock + Event.elapsed earlier) ∧
    final.step = (.error cause, final)
  sums : AddsInWords clock events
  inWords : ∀ events' fault?' last' final',
    WordApproaches target (UInt32.ofNat clock) p events' fault?' last' final' ↔
      events' = events ∧ fault?' = fault? ∧ last'.toNat = last ∧ final' = final

namespace Invaders

namespace Machine

/-- A run of the machine to any target that leaves room for the dearest instruction ends after at
most a step for every four cycles, at its target or before a step that fails. -/
theorem runUntil_ends_in_time (m : Machine) (target : UInt32) (counter : m.frameCycles < 2 ^ 32)
    (room : target.toNat ≤ 2 ^ 32 - 18) :
    (∀ opcode, Opcode.cycles opcode = 0 ↔ Opcode.Refused opcode) ∧
      (∀ (σ : Type) (p : Processor σ), p.Charges) ∧
      ∃ events fault? last after,
        m.cpu.runUntil target.toNat m.frameCycles = (fault?, last, after) ∧
          EndsInTime target m.frameCycles m.cpu.processor events fault? last after.processor := by
  obtain ⟨events, fault?, last, after, ran, run⟩ :=
    m.cpu.exists_approaches target.toNat m.frameCycles
  have sums := run.addsInWords room
  refine ⟨Opcode.cycles_eq_zero_iff, fun _ p => p.charges, events, fault?, last, after, ran, ?_⟩
  constructor
  case steps => exact run
  case length_le => exact run.length_le
  case counted => exact run.last_eq
  case idle => exact fun passed => run.deterministic (.reached passed)
  case reached =>
    intro done below
    rw [done] at run
    have bounds := run.last_of_done
    omega
  case stopped =>
    intro cause failed
    rw [failed] at run
    exact ⟨run.last_of_fault, run.failing_step⟩
  case sums => exact sums
  case inWords =>
    obtain ⟨wordRun, fits⟩ := run.inWords sums target.toNat_lt counter
    rw [UInt32.ofNat_toNat] at wordRun
    intro events' fault?' last' final'
    constructor
    · intro other
      obtain ⟨rfl, rfl, rfl, rfl⟩ := wordRun.deterministic other
      exact ⟨rfl, rfl, UInt32.toNat_ofNat_of_lt' fits, rfl⟩
    · rintro ⟨rfl, rfl, ends, rfl⟩
      rwa [← ends, UInt32.ofNat_toNat] at wordRun

/-- One cycle before the last target with room behind it, with an XTHL on the bus. -/
def brimming : Machine where
  configuration := ⟨4294967278, 1, ⟨3, true⟩⟩
  cpu :=
    { processor :=
        { core := { Core.cleared with interruptsEnabled := true, pendingInterrupt := some 0xE3 }
          memory := ⟨⟨#[0x00, 0x00]⟩⟩
          ports := (Board.new ⟨3, true⟩).ports }
      journal := ⟨none, #[]⟩
      remark := Monitor.silent }
  frameCycles := 4294967277

theorem runUntil_ends_in_time_brimming :
    brimming.frameCycles < 2 ^ 32 ∧ (4294967278 : UInt32).toNat ≤ 2 ^ 32 - 18 ∧
      ∃ events after, brimming.cpu.runUntil 4294967278 4294967277 = (none, 2 ^ 32 - 1, after) ∧
        EndsInTime 4294967278 4294967277 brimming.cpu.processor events none (2 ^ 32 - 1)
          after.processor ∧ events.length = 1 := by
  have dearest : Approaches 4294967278 4294967277 brimming.cpu.processor _ none 4294967295 _ :=
    .step (by decide) rfl (.reached (by decide))
  obtain ⟨-, -, events, fault?, last, after, ran, ends⟩ :=
    runUntil_ends_in_time brimming 4294967278 (by decide) (by decide)
  obtain ⟨taken, rfl, rfl, -⟩ := ends.steps.deterministic dearest
  exact ⟨by decide, by decide, events, after, ran, ends, by rw [taken]; rfl⟩

end Machine

end Invaders

end Intel8080
