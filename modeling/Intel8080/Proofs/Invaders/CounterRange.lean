import Mathlib.Order.Monotone.Basic
import Intel8080.Proofs.Execution.Growth
import Intel8080.Proofs.Interrupts.Acceptance
import Intel8080.Proofs.Invaders.MemoryRoutes
import Intel8080.Proofs.Invaders.WordCounter

/-!
# Which frames count in range

A frame may be as long as a word can tell, and the last step of a frame goes past its end. So a
frame must be shorter than 2 ^ 32 by the dearest instruction, and then every program counts in
range. If it is longer there is a program whose counter arrives at 2 ^ 32 exactly: two NOPs and
65534 XTHLs, round and round the address space. It only touches the two NOPs, which it finds and
leaves as zeros.
-/

namespace Intel8080

/-! ## A program that runs for ever -/

def lapOpcode (address : Nat) : UInt8 :=
  if address < 2 then 0x00 else 0xE3

/-- Two NOPs and then a number of XTHLs. -/
def exchanges (count : Nat) : ByteArray :=
  ⟨#[0x00, 0x00] ++ Array.replicate count 0xE3⟩

def lapProgram : ByteArray :=
  exchanges 65534

theorem size_exchanges (count : Nat) : (exchanges count).size = 2 + count := by
  change (#[0x00, 0x00] ++ Array.replicate count (0xE3 : UInt8)).size = 2 + count
  rw [Array.size_append, Array.size_replicate]
  rfl

theorem byte?_exchanges {count i : Nat} (inside : i < 2 + count) :
    Memory.byte? ⟨exchanges count⟩ i = some (lapOpcode i) := by
  rw [Memory.byte?_eq_getElem?]
  change (#[0x00, 0x00] ++ Array.replicate count (0xE3 : UInt8)).toList[i]? = some (lapOpcode i)
  rw [Array.toList_append, Array.toList_replicate, lapOpcode]
  rcases Nat.lt_or_ge i 2 with front | behind
  · rw [if_pos front, List.getElem?_append_left front]
    obtain rfl | rfl : i = 0 ∨ i = 1 := by omega
    all_goals rfl
  · rw [if_neg (by omega), List.getElem?_append_right behind, List.getElem?_replicate_of_lt]
    change i - 2 < count
    omega

def lapPrice (steps : Nat) : Nat :=
  if steps % 65536 < 2 then 4 else 18

/-- The cost of the first steps together: whole laps, the NOPs and the XTHLs of the last lap. -/
def lapSpent (steps : Nat) : Nat :=
  steps / 65536 * 1179620 + 4 * min (steps % 65536) 2 + 18 * (steps % 65536 - 2)

theorem lapSpent_succ (steps : Nat) : lapSpent (steps + 1) = lapSpent steps + lapPrice steps := by
  unfold lapSpent lapPrice
  split <;> omega

theorem lapSpent_strictMono : StrictMono lapSpent :=
  strictMono_nat_of_lt_succ fun steps => by
    rw [lapSpent_succ, lapPrice]
    split <;> omega

structure OnLap {σ : Type} (steps : Nat) (p : Processor σ) : Prop where
  pc : p.core.registers.pc = UInt16.ofNat steps
  sp : p.core.registers.sp = 0
  h : p.core.registers.h = 0
  l : p.core.registers.l = 0
  disabled : p.core.interruptsEnabled = false
  held : ∀ i < 65536, p.memory.byte? i = some (lapOpcode i)

namespace OnLap

open Processor

variable {σ : Type} {steps : Nat} {p : Processor σ}

theorem request (lap : OnLap steps p) (vector : UInt8) :
    OnLap steps (p.requestInterrupt vector) :=
  ⟨lap.pc, lap.sp, lap.h, lap.l, lap.disabled, lap.held⟩

theorem pastOpcode (lap : OnLap steps p) (opcode : UInt8) :
    OnLap (steps + 1) (p.pastOpcode opcode) := by
  refine ⟨?_, lap.sp, lap.h, lap.l, lap.disabled, lap.held⟩
  rw [UInt16.ofNat_add, ← lap.pc]
  rfl

theorem xthl (lap : OnLap steps p) : OnLap steps (Operation.xthl.meaning p) := by
  have first : p.memory.byteAt 0 = 0 := Memory.byteAt_of_byte? (lap.held 0 (by decide))
  have second : p.memory.byteAt 1 = 0 := Memory.byteAt_of_byte? (lap.held 1 (by decide))
  have same : (p.memory.store 0 0).store 1 0 = p.memory := by
    have low := p.memory.store_byteAt 0
    have high := p.memory.store_byteAt 1
    rw [first] at low
    rw [second] at high
    rw [low, high]
  have memory : (Operation.xthl.meaning p).memory = p.memory := by
    change (p.memory.store p.core.registers.sp p.core.registers.l).store (p.core.registers.sp + 1)
      p.core.registers.h = p.memory
    rw [lap.sp, lap.l, lap.h]
    exact same
  refine ⟨lap.pc, lap.sp, ?_, ?_, lap.disabled, fun i inside => ?_⟩
  · change p.memory.byteAt (p.core.registers.sp + 1) = 0
    rw [lap.sp]
    exact second
  · change p.memory.byteAt p.core.registers.sp = 0
    rw [lap.sp]
    exact first
  · rw [memory]
    exact lap.held i inside

theorem step (lap : OnLap steps p) :
    ∃ q, p.step = (.ok (lapPrice steps), q) ∧ OnLap (steps + 1) q := by
  have fetching := Core.acceptable_of_disabled lap.disabled
  have inside : steps % 65536 < 65536 := Nat.mod_lt _ (by decide)
  have held : p.memory.byte? p.core.registers.pc.toNat = some (lapOpcode (steps % 65536)) := by
    rw [lap.pc, UInt16.toNat_ofNat']
    exact lap.held _ inside
  unfold lapPrice
  unfold lapOpcode at held
  by_cases front : steps % 65536 < 2
  · rw [if_pos front] at held ⊢
    have decoded : Operation.decode 0x00 = some .nop := rfl
    exact ⟨_, (Readies.of_byte? fetching held rfl).step decoded rfl, lap.pastOpcode 0x00⟩
  · rw [if_neg front] at held ⊢
    have reachable : (p.pastOpcode 0xE3).Inside [p.core.registers.sp, p.core.registers.sp + 1] := by
      rw [lap.sp]
      intro address among
      obtain rfl | rfl : address = 0 ∨ address = 0 + 1 := by simpa using among
      · exact Memory.lt_of_byte? (lap.held 0 (by decide))
      · exact Memory.lt_of_byte? (lap.held 1 (by decide))
    have decoded : Operation.decode 0xE3 = some .xthl := rfl
    exact ⟨_, (Readies.of_byte? fetching held rfl).step decoded
      (accessFault?_eq_none_iff.mpr reachable), (lap.pastOpcode 0xE3).xthl⟩

theorem of_step {outcome : Except Fault Nat} {q : Processor σ} (lap : OnLap steps p)
    (stepped : p.step = (outcome, q)) : outcome = .ok (lapPrice steps) ∧ OnLap (steps + 1) q := by
  obtain ⟨next, done, onward⟩ := lap.step
  cases stepped.symm.trans done
  exact ⟨rfl, onward⟩

theorem approaches {target clock last : Nat} {final : Processor σ} {events : List (Event σ)}
    {fault? : Option Fault} (h : Approaches target clock p events fault? last final)
    (lap : OnLap steps p) (counted : clock = lapSpent steps) :
    fault? = none ∧ ∃ n, steps ≤ n ∧ last = lapSpent n ∧ OnLap n final ∧
      ∀ i, steps ≤ i → i < n → ∃ earlier before later,
        events = earlier ++ .step before (lapPrice i) :: later ∧
          clock + Event.elapsed earlier = lapSpent i := by
  induction h generalizing steps with
  | reached enough =>
      exact ⟨rfl, steps, Nat.le_refl _, counted, lap, fun i after before => by omega⟩
  | @step clock cost last p q final events fault? below stepped rest ih =>
      obtain ⟨paid, onward⟩ := lap.of_step stepped
      injection paid with paid
      have total : clock + cost = lapSpent (steps + 1) := by rw [lapSpent_succ, counted, paid]
      obtain ⟨done, n, after, ends, there, each⟩ := ih onward total
      refine ⟨done, n, by omega, ends, there, fun i from_here before => ?_⟩
      rcases Nat.eq_or_lt_of_le from_here with here | later
      · subst here
        exact ⟨[], p, events, by rw [paid]; rfl, counted⟩
      · obtain ⟨earlier, before, later, split, sum⟩ := each i later before
        refine ⟨.step p cost :: earlier, before, later, by rw [split]; rfl, ?_⟩
        rw [Event.elapsed_cons, Event.cycles, ← sum]
        omega
  | fault below failed => cases (lap.of_step failed).1

/-- A word that wraps stays even, since every step costs an even number of cycles. -/
theorem wordApproaches {target clock last : UInt32} {final : Processor σ} {events : List (Event σ)}
    {fault? : Option Fault} (h : WordApproaches target clock p events fault? last final)
    (lap : OnLap steps p) (even : clock.toNat % 2 = 0) :
    fault? = none ∧ ¬ last < target ∧ last.toNat % 2 = 0 ∧ ∃ n, OnLap n final := by
  induction h generalizing steps with
  | reached enough => exact ⟨rfl, enough, even, steps, lap⟩
  | step below stepped _ ih =>
      obtain ⟨paid, onward⟩ := lap.of_step stepped
      injection paid with paid
      refine ih onward ?_
      rw [UInt32.toNat_add, UInt32.toNat_ofNat', paid, lapPrice]
      split <;> omega
  | fault below failed => cases (lap.of_step failed).1

end OnLap

namespace Invaders

/-- In a frame that is long enough the sum of the program passes 2 ^ 32 - 18, where the next
step is an XTHL. -/
theorem FrameCall.passes_limit {length last : Nat} {p q : Processor Board}
    {events : List (Event Board)} {outcome : Except Fault Nat}
    (h : FrameCall length 0 p events outcome last q) (lap : OnLap 0 p)
    (long : 2 ^ 32 - 18 < length) (bounded : length < 2 ^ 32) :
    ∃ earlier before later, events = earlier ++ .step before 18 :: later ∧
      Event.elapsed earlier = 2 ^ 32 - 18 := by
  have limit : lapSpent 238614957 = 2 ^ 32 - 18 := rfl
  have price : lapPrice 238614957 = 18 := rfl
  cases h with
  | early first => cases (lap.approaches first rfl).1
  | late first second =>
      obtain ⟨-, n, -, middle, there, -⟩ := lap.approaches first rfl
      cases ((there.request midScreenVector).approaches second middle).1
  | complete first second =>
      rename_i middle last half whole firstEvents secondEvents
      obtain ⟨-, n, -, counted, there, -⟩ := lap.approaches first rfl
      obtain ⟨-, k, -, ends, -, each⟩ := (there.request midScreenVector).approaches second counted
      have firstEnd := first.last_of_done
      have secondEnd := second.last_of_done
      have elapsed := first.last_eq
      have after : n < 238614957 := lapSpent_strictMono.lt_iff_lt.mp (by omega)
      have inTime : 238614957 < k := lapSpent_strictMono.lt_iff_lt.mp (by omega)
      obtain ⟨earlier, before, later, split, sum⟩ := each _ (Nat.le_of_lt after) inTime
      refine ⟨firstEvents ++ .request half midScreenVector :: earlier, before,
        later ++ [.request whole endOfScreenVector], ?_, ?_⟩
      · rw [split, price]
        simp
      · rw [Event.elapsed_append, Event.elapsed_cons, Event.cycles]
        omega

namespace Machine

theorem processor_of_load {m : Machine} {rom : ByteArray} {memory : Memory}
    (loaded : m.cpu.processor.memory.load rom 0 = .ok memory) :
    (m.act (.loadRom rom)).cpu.processor = Processor.jump { m.cpu.processor with memory } 0 := by
  simp only [act, loadRom_of_load (Processor.load_of_ok loaded)]

theorem onLap_of_load {m : Machine} (cleared : m.cpu.processor.core = .cleared)
    (size : m.cpu.processor.memory.capacity = Memory.addressSpace) :
    OnLap 0 (m.act (.loadRom lapProgram)).cpu.processor := by
  have fits : 0 + lapProgram.size = Memory.addressSpace := by
    rw [lapProgram, size_exchanges]
    rfl
  obtain ⟨memory, loaded⟩ : ∃ memory, m.cpu.processor.memory.load lapProgram 0 = .ok memory :=
    ⟨_, Memory.load_of_le (by rw [fits, size])⟩
  rw [processor_of_load loaded]
  refine ⟨rfl, ?_, ?_, ?_, ?_, fun i inside => ?_⟩
  case refine_5 =>
    have within : 0 ≤ i ∧ i < 0 + lapProgram.size := ⟨Nat.zero_le i, by rwa [fits]⟩
    change memory.byte? i = some (lapOpcode i)
    rw [Memory.byte?_of_load loaded, if_pos within, Nat.sub_zero]
    exact byte?_exchanges (by omega)
  all_goals
    simp only [Processor.jump, cleared]
    rfl

theorem fresh_of_load (c : Configuration) (journal : Journal) (rom : ByteArray) :
    ((new c journal).act (.loadRom rom)).frameCycles = 0 ∧
      ((new c journal).act (.loadRom rom)).configuration = c :=
  ⟨act_frameCycles _ (by simp), act_configuration _ _⟩

def lapping (c : Configuration) (journal : Journal) : Machine :=
  (new c journal).act (.loadRom lapProgram)

theorem onLap_lapping (c : Configuration) (journal : Journal) :
    OnLap 0 (lapping c journal).cpu.processor := by
  have size : (new c journal).cpu.processor.memory.capacity = Memory.addressSpace :=
    Memory.capacity_zeroed _
  rw [lapping]
  exact onLap_of_load rfl size

/-- The counter is in range in every frame of every program if frames leave room for the dearest
instruction, and only then. -/
theorem frames_count_in_range_iff (c : Configuration) :
    c.divisorWord ≠ 0 ∧ c.frameWord.toNat = c.cyclesPerFrame ∧
      ((∀ journal rom count,
          (((new c journal).act (.loadRom rom)).play (List.replicate count .frame)).CountsInWords) ↔
        c.cyclesPerFrame ≤ 2 ^ 32 - 18) := by
  refine ⟨c.divisorWord_ne_zero, ?_, fun counts => ?_, fun short journal rom count => ?_⟩
  · rw [← c.ofNat_cyclesPerFrame, UInt32.toNat_ofNat_of_lt' c.cyclesPerFrame_lt]
  · obtain ⟨fresh, same⟩ := fresh_of_load c (.opened none) lapProgram
    rw [← lapping] at fresh same
    refine Nat.le_of_not_lt fun long => ?_
    have call := (lapping c (.opened none)).tracedFrame_spec.2.1
    rw [fresh, same] at call
    obtain ⟨earlier, before, later, split, sum⟩ :=
      call.passes_limit (onLap_lapping c _) long c.cyclesPerFrame_lt
    have counted := counts (.opened none) lapProgram 0
    rw [List.replicate_zero, play_nil, ← lapping] at counted
    have sumInRange := counted.sums earlier before 18 later split
    omega
  · obtain ⟨start, made⟩ := fresh_of_load c journal rom
    apply countsInWords_of_le
    · rw [play_configuration]
      exact frameCycles_play_lt _ (by omega)
    · rwa [play_configuration, made]

theorem no_wordFrameCall_of_onLap {length clock last : UInt32} {steps : Nat}
    {p q : Processor Board} {events : List (Event Board)} {outcome : Except Fault UInt32}
    (lap : OnLap steps p) (even : clock.toNat % 2 = 0) (longest : length.toNat = 2 ^ 32 - 1) :
    ¬ WordFrameCall length clock p events outcome last q := by
  intro call
  cases call with
  | early first => cases (lap.wordApproaches first even).1
  | late first second =>
      obtain ⟨-, -, middle, n, there⟩ := lap.wordApproaches first even
      cases ((there.request midScreenVector).wordApproaches second middle).1
  | complete first second =>
      rename_i middle stop half whole firstEvents secondEvents
      obtain ⟨-, -, stillEven, n, there⟩ := lap.wordApproaches first even
      obtain ⟨-, reached, ends, -⟩ :=
        (there.request midScreenVector).wordApproaches second stillEven
      have bound := stop.toNat_lt
      rw [UInt32.lt_iff_toNat_lt] at reached
      omega

def longest : Configuration :=
  ⟨4294967295, 1, ⟨3, true⟩⟩

/-- In the longest frame a sum comes to 2 ^ 32, and with a counter of 32 bits the call that runs
the frame never ends. -/
theorem longest_frame_never_ends :
    (∃ earlier before later,
        (lapping longest (.opened none)).frameEvents = earlier ++ .step before 18 :: later ∧
          (lapping longest (.opened none)).frameCycles + Event.elapsed earlier + 18 = 2 ^ 32) ∧
      ∀ events outcome last q, ¬ WordFrameCall longest.frameWord
        (UInt32.ofNat (lapping longest (.opened none)).frameCycles)
        (lapping longest (.opened none)).cpu.processor events outcome last q := by
  obtain ⟨fresh, same⟩ := fresh_of_load longest (.opened none) lapProgram
  rw [← lapping] at fresh same
  have lap := onLap_lapping longest (.opened none)
  have call := (lapping longest (.opened none)).tracedFrame_spec.2.1
  rw [fresh, same] at call
  rw [fresh]
  constructor
  · obtain ⟨earlier, before, later, split, sum⟩ :=
      call.passes_limit lap (by decide) longest.cyclesPerFrame_lt
    exact ⟨earlier, before, later, split, by omega⟩
  · intro events outcome last q
    exact no_wordFrameCall_of_onLap lap rfl (by decide)

end Machine

end Invaders

end Intel8080
