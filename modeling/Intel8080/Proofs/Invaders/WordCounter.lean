import Intel8080.Proofs.Invaders.Conservation

/-!
# A counter of 32 bits

The counter of a frame is a natural number, and the runs of a frame end because it grows. Here
are the same runs with a counter of 32 bits, which wraps. They need not end: a derivation of a
run is a run that does. As long as every sum is less than 2 ^ 32 the two counters agree, so
that a frame ends with the wrapping counter too.
-/

namespace Intel8080

/-- Steps are taken while the clock is below the target, and the clock is a word that wraps. -/
inductive WordApproaches {σ : Type} (target : UInt32) :
    UInt32 → Processor σ → List (Event σ) → Option Fault → UInt32 → Processor σ → Prop where
  | reached {clock : UInt32} {p : Processor σ} (enough : ¬ clock < target) :
      WordApproaches target clock p [] none clock p
  | step {clock last : UInt32} {cost : Nat} {p q final : Processor σ} {events : List (Event σ)}
      {fault? : Option Fault} (below : clock < target) (stepped : p.step = (.ok cost, q))
      (rest : WordApproaches target (clock + UInt32.ofNat cost) q events fault? last final) :
      WordApproaches target clock p (.step p cost :: events) fault? last final
  | fault {clock : UInt32} {p q : Processor σ} {cause : Fault} (below : clock < target)
      (failed : p.step = (.error cause, q)) :
      WordApproaches target clock p [.fault p cause] (some cause) clock q

theorem WordApproaches.deterministic {σ : Type} {target clock last last' : UInt32}
    {p final final' : Processor σ} {events events' : List (Event σ)}
    {fault? fault?' : Option Fault} (h : WordApproaches target clock p events fault? last final)
    (h' : WordApproaches target clock p events' fault?' last' final') :
    events = events' ∧ fault? = fault?' ∧ last = last' ∧ final = final' := by
  induction h generalizing events' with
  | reached enough =>
      cases h' with
      | reached _ => exact ⟨rfl, rfl, rfl, rfl⟩
      | step below' _ _ => exact absurd below' enough
      | fault below' _ => exact absurd below' enough
  | step below stepped _ ih =>
      cases h' with
      | reached enough' => exact absurd below enough'
      | step _ stepped' rest' =>
          cases stepped.symm.trans stepped'
          obtain ⟨rfl, same⟩ := ih rest'
          exact ⟨rfl, same⟩
      | fault _ failed' => cases stepped.symm.trans failed'
  | fault below failed =>
      cases h' with
      | reached enough' => exact absurd below enough'
      | step _ stepped' _ => cases failed.symm.trans stepped'
      | fault _ failed' =>
          cases failed.symm.trans failed'
          exact ⟨rfl, rfl, rfl, rfl⟩

/-! ## Sums in range -/

/-- At every step of a list, the clock before it and its cost add up to less than 2 ^ 32. -/
def AddsInWords {σ : Type} (clock : Nat) (events : List (Event σ)) : Prop :=
  ∀ earlier before cost later, events = earlier ++ .step before cost :: later →
    clock + Event.elapsed earlier + cost < 2 ^ 32

namespace AddsInWords

variable {σ : Type} {clock cost : Nat} {p : Processor σ} {event : Event σ}
  {events first second : List (Event σ)}

theorem head (h : AddsInWords clock (.step p cost :: events)) : clock + cost < 2 ^ 32 :=
  h [] p cost events rfl

theorem tail (h : AddsInWords clock (event :: events)) :
    AddsInWords (clock + event.cycles) events := by
  rintro earlier before cost later rfl
  have sum := h (event :: earlier) before cost later rfl
  rwa [Event.elapsed_cons, ← Nat.add_assoc] at sum

theorem left (h : AddsInWords clock (first ++ second)) : AddsInWords clock first := by
  rintro earlier before cost later rfl
  exact h earlier before cost (later ++ second) (by simp)

theorem right (h : AddsInWords clock (first ++ second)) :
    AddsInWords (clock + Event.elapsed first) second := by
  rintro earlier before cost later rfl
  have sum := h (first ++ earlier) before cost later (by simp)
  rwa [Event.elapsed_append, ← Nat.add_assoc] at sum

end AddsInWords

theorem Approaches.clock_le {σ : Type} {target clock last : Nat} {p final : Processor σ}
    {events : List (Event σ)} {fault? : Option Fault}
    (h : Approaches target clock p events fault? last final) : clock ≤ last := by
  rw [h.last_eq]
  exact Nat.le_add_right clock _

/-- Where every sum is in range, the word of the clock takes the same steps to the word of the
same end. -/
theorem Approaches.inWords {σ : Type} {target clock last : Nat} {p final : Processor σ}
    {events : List (Event σ)} {fault? : Option Fault}
    (h : Approaches target clock p events fault? last final) (sums : AddsInWords clock events)
    (aim : target < 2 ^ 32) (start : clock < 2 ^ 32) :
    WordApproaches (UInt32.ofNat target) (UInt32.ofNat clock) p events fault?
        (UInt32.ofNat last) final ∧ last < 2 ^ 32 := by
  induction h with
  | reached enough =>
      refine ⟨.reached ?_, start⟩
      rw [UInt32.ofNat_lt_iff_lt start aim]
      omega
  | step below stepped _ ih =>
      obtain ⟨rest, fits⟩ := ih sums.tail sums.head
      rw [UInt32.ofNat_add] at rest
      exact ⟨.step ((UInt32.ofNat_lt_iff_lt start aim).mpr below) stepped rest, fits⟩
  | fault below failed =>
      exact ⟨.fault ((UInt32.ofNat_lt_iff_lt start aim).mpr below) failed, start⟩

namespace Invaders

/-- One call for a frame with a counter of 32 bits. Its sums and differences wrap. -/
inductive WordFrameCall (length : UInt32) :
    UInt32 → Processor Board → List (Event Board) → Except Fault UInt32 → UInt32 →
      Processor Board → Prop where
  | early {clock last : UInt32} {p q : Processor Board} {events : List (Event Board)}
      {cause : Fault} (first : WordApproaches (length / 2) clock p events (some cause) last q) :
      WordFrameCall length clock p events (.error cause) last q
  | late {clock middle last : UInt32} {p q r : Processor Board}
      {events later : List (Event Board)} {cause : Fault}
      (first : WordApproaches (length / 2) clock p events none middle q)
      (second : WordApproaches length middle (q.requestInterrupt midScreenVector) later
        (some cause) last r) :
      WordFrameCall length clock p (events ++ .request q midScreenVector :: later)
        (.error cause) last r
  | complete {clock middle last : UInt32} {p q r : Processor Board}
      {events later : List (Event Board)}
      (first : WordApproaches (length / 2) clock p events none middle q)
      (second : WordApproaches length middle (q.requestInterrupt midScreenVector) later none
        last r) :
      WordFrameCall length clock p
        (events ++ .request q midScreenVector :: (later ++ [.request r endOfScreenVector]))
        (.ok (last - clock)) (last - length) (r.requestInterrupt endOfScreenVector)

def inWords (outcome : Except Fault Nat) : Except Fault UInt32 :=
  outcome.map UInt32.ofNat

theorem FrameCall.inWords {length clock last : Nat} {p q : Processor Board}
    {events : List (Event Board)} {outcome : Except Fault Nat}
    (h : FrameCall length clock p events outcome last q) (sums : AddsInWords clock events)
    (long : length < 2 ^ 32) (start : clock < 2 ^ 32) :
    WordFrameCall (UInt32.ofNat length) (UInt32.ofNat clock) p events (Invaders.inWords outcome)
      (UInt32.ofNat last) q := by
  have half : UInt32.ofNat (length / 2) = UInt32.ofNat length / 2 :=
    UInt32.ofNat_div long (by decide)
  have aim : length / 2 < 2 ^ 32 := by omega
  cases h with
  | early first =>
      have run := (first.inWords sums aim start).1
      rw [half] at run
      exact .early run
  | late first second =>
      obtain ⟨run, fits⟩ := first.inWords sums.left aim start
      have later := sums.right.tail
      rw [Event.cycles, Nat.add_zero, ← first.last_eq] at later
      rw [half] at run
      exact .late run (second.inWords later long fits).1
  | complete first second =>
      obtain ⟨run, fits⟩ := first.inWords sums.left aim start
      have later := sums.right.tail.left
      rw [Event.cycles, Nat.add_zero, ← first.last_eq] at later
      have spent := UInt32.ofNat_sub (Nat.le_trans first.clock_le second.clock_le)
      rw [half] at run
      rw [UInt32.ofNat_sub second.last_of_done.1, Invaders.inWords, Except.map, spent]
      exact .complete run (second.inWords later long fits).1

namespace Configuration

def divisorWord (c : Configuration) : UInt32 :=
  if c.frameRateHz = 0 then 1 else c.frameRateHz

def frameWord (c : Configuration) : UInt32 :=
  c.clockHz / c.divisorWord

theorem toNat_divisorWord (c : Configuration) :
    c.divisorWord.toNat = max c.frameRateHz.toNat 1 := by
  unfold divisorWord
  by_cases zero : c.frameRateHz = 0
  · rw [if_pos zero, zero]
    rfl
  · have positive : c.frameRateHz.toNat ≠ 0 := fun none => zero (UInt32.toNat_inj.mp none)
    rw [if_neg zero]
    omega

theorem divisorWord_ne_zero (c : Configuration) : c.divisorWord ≠ 0 := by
  intro zero
  have rate := c.toNat_divisorWord
  rw [zero, UInt32.toNat_zero] at rate
  omega

theorem cyclesPerFrame_lt (c : Configuration) : c.cyclesPerFrame < 2 ^ 32 :=
  Nat.lt_of_le_of_lt (Nat.div_le_self _ _) c.clockHz.toNat_lt

theorem ofNat_cyclesPerFrame (c : Configuration) : UInt32.ofNat c.cyclesPerFrame = c.frameWord := by
  apply UInt32.toNat_inj.mp
  rw [UInt32.toNat_ofNat_of_lt' c.cyclesPerFrame_lt, frameWord, UInt32.toNat_div, toNat_divisorWord]
  rfl

end Configuration

namespace Machine

/-- The next frame of a machine counts in range: no sum reaches 2 ^ 32, what is subtracted is
not larger, and with a counter that wraps the frame ends in the same way. -/
structure CountsInWords (m : Machine) : Prop where
  sums : AddsInWords m.frameCycles m.frameEvents
  differences : ∀ half whole,
    m.runToInterrupt (m.configuration.cyclesPerFrame / 2) midScreenVector = (none, half) →
    half.runToInterrupt m.configuration.cyclesPerFrame endOfScreenVector = (none, whole) →
      m.frameCycles ≤ whole.frameCycles ∧ m.configuration.cyclesPerFrame ≤ whole.frameCycles
  ends : WordFrameCall m.configuration.frameWord (UInt32.ofNat m.frameCycles) m.cpu.processor
    m.frameEvents (inWords m.stepFrame.1) (UInt32.ofNat m.stepFrame.2.frameCycles)
    m.stepFrame.2.cpu.processor

/-- Frames that leave room for the dearest instruction behind their end count in range. -/
theorem countsInWords_of_le {m : Machine}
    (inside : m.frameCycles < max m.configuration.cyclesPerFrame 18)
    (short : m.configuration.cyclesPerFrame ≤ 2 ^ 32 - 18) : m.CountsInWords := by
  have call := m.tracedFrame_spec.2.1
  have sums : AddsInWords m.frameCycles m.frameEvents := by
    intro earlier before cost later split
    have moment := call.clock_le (split.trans (List.append_cons earlier _ later))
    rw [Event.elapsed_append, Event.elapsed_cons, Event.elapsed_nil, Event.cycles] at moment
    omega
  constructor
  case sums => exact sums
  case differences =>
    intro half whole first second
    have firstEnd := frameCycles_of_runToInterrupt first
    have secondEnd := frameCycles_of_runToInterrupt second
    omega
  case ends =>
    rw [← Configuration.ofNat_cyclesPerFrame]
    exact call.inWords sums (Configuration.cyclesPerFrame_lt _) (by omega)

end Machine

end Invaders

end Intel8080
