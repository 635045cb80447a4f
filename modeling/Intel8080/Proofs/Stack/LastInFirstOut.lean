import Mathlib.Data.List.Induction
import Intel8080.Proofs.Execution.Growth

/-!
# The stack

Words are pushed downwards from SP, and both SP and the addresses run around the address
space. The bytes of up to 32768 words all have addresses of their own, so what has been pushed
is popped again in reverse order, wherever the stack starts. Pushing changes SP and these
bytes only, and popping changes SP back.
-/

namespace Intel8080

/-! ## Addresses below the top -/

/-- The address some bytes below another, around the address space. -/
def below (top : UInt16) (distance : Nat) : UInt16 :=
  top - UInt16.ofNat distance

theorem toNat_below (top : UInt16) (distance : Nat) :
    (below top distance).toNat = (65536 - distance % 65536 + top.toNat) % 65536 := by
  rw [below, UInt16.toNat_sub, UInt16.toNat_ofNat']

@[simp] theorem below_zero (top : UInt16) : below top 0 = top :=
  UInt16.sub_zero top

theorem below_sub (top : UInt16) (distance more : Nat) :
    below top distance - UInt16.ofNat more = below top (distance + more) := by
  rw [below, below, UInt16.ofNat_add]
  grind

theorem below_add (top : UInt16) (distance less : Nat) :
    below top (distance + less) + UInt16.ofNat less = below top distance := by
  rw [← below_sub, UInt16.sub_add_cancel]

theorem below_ne {top : UInt16} {m n : Nat} (positive : 1 ≤ m) (less : m < n)
    (bound : n ≤ 65536) : below top m ≠ below top n := by
  intro same
  have equal := congrArg UInt16.toNat same
  have small := top.toNat_lt
  rw [toNat_below, toNat_below] at equal
  omega

namespace Exec

variable {σ : Type}

def pushAll : List UInt16 → Exec σ Unit
  | [] => return
  | word :: later => do
      push word
      pushAll later

/-- Pops a number of words, the topmost first. -/
def popAll : Nat → Exec σ (List UInt16)
  | 0 => return []
  | count + 1 => do
      let word ← pop
      let earlier ← popAll count
      return word :: earlier

end Exec

/-! ## Words in memory -/

namespace Processor

open Exec

variable {σ : Type} {p q : Processor σ} {words : List UInt16}

/-- Words lie below an address in the order of pushing, each with its high byte above its low
byte. -/
def HoldsWords (p : Processor σ) (top : UInt16) (words : List UInt16) : Prop :=
  ∀ k (h : k < words.length),
    p.peek (below top (2 * k + 1)) = highByte words[k] ∧
      p.peek (below top (2 * k + 2)) = lowByte words[k]

/-- The bytes that some words take up below an address lie inside memory. -/
def HasRoom (p : Processor σ) (top : UInt16) (depth : Nat) : Prop :=
  ∀ i, 1 ≤ i → i ≤ 2 * depth → (below top i).toNat < p.memory.capacity

/-- The processor `q` is `p` with words pushed: SP has moved below them, and nothing else has
changed but their bytes. -/
structure Pushed (p : Processor σ) (words : List UInt16) (q : Processor σ) : Prop where
  core : q.core = (p.setSP (below p.core.registers.sp (2 * words.length))).core
  ports : q.ports = p.ports
  capacity : q.memory.capacity = p.memory.capacity
  holds : q.HoldsWords p.core.registers.sp words
  outside : ∀ address,
    (∀ i, 1 ≤ i → i ≤ 2 * words.length → (below p.core.registers.sp i).toNat ≠ address) →
      q.memory.byte? address = p.memory.byte? address

theorem Pushed.nil (p : Processor σ) : p.Pushed [] p where
  core := by
    rw [List.length_nil, Nat.mul_zero, below_zero]
    rfl
  ports := rfl
  capacity := rfl
  holds _ h := absurd h (Nat.not_lt_zero _)
  outside _ _ := rfl

theorem Pushed.sp (pushed : p.Pushed words q) :
    q.core.registers.sp = below p.core.registers.sp (2 * words.length) := by
  rw [pushed.core]
  rfl

/-! ## Single words -/

theorem peek_pushBytes_of_ne (p : Processor σ) (high low : UInt8) {address : UInt16}
    (first : p.core.registers.sp - 1 ≠ address) (second : p.core.registers.sp - 2 ≠ address) :
    (p.pushBytes high low).peek address = p.peek address :=
  (Memory.byteAt_store_of_ne _ low second).trans (Memory.byteAt_store_of_ne _ high first)

theorem peek_pushBytes (p : Processor σ) (high low : UInt8)
    (inside : p.Inside [p.core.registers.sp - 1, p.core.registers.sp - 2]) :
    (p.pushBytes high low).peek (p.core.registers.sp - 1) = high ∧
      (p.pushBytes high low).peek (p.core.registers.sp - 2) = low := by
  have apart : p.core.registers.sp - 2 ≠ p.core.registers.sp - 1 := by grind
  constructor
  · exact (Memory.byteAt_store_of_ne _ low apart).trans
      (Memory.byteAt_store_self high (inside _ (by simp)))
  · refine Memory.byteAt_store_self low ?_
    change _ < (p.memory.store _ _).capacity
    rw [Memory.capacity_store]
    exact inside _ (by simp)

theorem capacity_pushBytes (p : Processor σ) (high low : UInt8) :
    (p.pushBytes high low).memory.capacity = p.memory.capacity :=
  (Memory.capacity_store ..).trans (Memory.capacity_store ..)

theorem byte?_pushBytes (p : Processor σ) (high low : UInt8) {address : Nat}
    (first : (p.core.registers.sp - 1).toNat ≠ address)
    (second : (p.core.registers.sp - 2).toNat ≠ address) :
    (p.pushBytes high low).memory.byte? address = p.memory.byte? address :=
  Operation.byte?_pushBytes_of_ne p high low (by simp [first, second])

theorem sp_pushBytes (p : Processor σ) (high low : UInt8) :
    (p.pushBytes high low).core.registers.sp + 1 = p.core.registers.sp - 1 ∧
      (p.pushBytes high low).core.registers.sp + 2 = p.core.registers.sp := by
  have sp : (p.pushBytes high low).core.registers.sp = p.core.registers.sp - 2 := rfl
  rw [sp]
  exact ⟨by grind, UInt16.sub_add_cancel ..⟩

theorem top_pushBytes (p : Processor σ) (high low : UInt8)
    (inside : p.Inside [p.core.registers.sp - 2, p.core.registers.sp - 1]) :
    (p.pushBytes high low).Inside [(p.pushBytes high low).core.registers.sp,
        (p.pushBytes high low).core.registers.sp + 1] ∧
      (p.pushBytes high low).peek ((p.pushBytes high low).core.registers.sp + 1) = high ∧
      (p.pushBytes high low).peek (p.pushBytes high low).core.registers.sp = low := by
  rw [(p.sp_pushBytes high low).1]
  refine ⟨fun address among => ?_, ?_⟩
  · exact Nat.lt_of_lt_of_eq (inside address among) (p.capacity_pushBytes high low).symm
  · exact p.peek_pushBytes high low fun address among =>
      inside address (by simpa [or_comm] using among)

theorem push_of_inside (p : Processor σ) (word : UInt16)
    (inside : p.Inside [p.core.registers.sp - 2, p.core.registers.sp - 1]) :
    push word p = .ok () (p.pushBytes (highByte word) (lowByte word)) := by
  rw [push_eq, accessFault?_eq_none_iff.mpr inside]
  rfl

theorem pop_of_inside (p : Processor σ)
    (inside : p.Inside [p.core.registers.sp, p.core.registers.sp + 1]) :
    pop p = .ok (joinBytes (p.peek (p.core.registers.sp + 1)) (p.peek p.core.registers.sp))
      (p.setSP (p.core.registers.sp + 2)) := by
  rw [pop_eq, accessFault?_eq_none_iff.mpr inside]
  rfl

/-! ## Any number of words -/

theorem HasRoom.mono {top : UInt16} {m n : Nat} (room : p.HasRoom top n) (fewer : m ≤ n) :
    p.HasRoom top m :=
  fun i positive bound => room i positive (Nat.le_trans bound (Nat.mul_le_mul_left 2 fewer))

theorem Pushed.push (pushed : p.Pushed words q) (word : UInt16) (depth : words.length < 32768)
    (room : p.HasRoom p.core.registers.sp (words.length + 1)) :
    push word q = .ok () (q.pushBytes (highByte word) (lowByte word)) ∧
      p.Pushed (words ++ [word]) (q.pushBytes (highByte word) (lowByte word)) := by
  have first : q.core.registers.sp - 1 =
      below p.core.registers.sp (2 * words.length + 1) := by
    rw [pushed.sp]
    exact below_sub _ _ 1
  have second : q.core.registers.sp - 2 =
      below p.core.registers.sp (2 * words.length + 2) := by
    rw [pushed.sp]
    exact below_sub _ _ 2
  have insideFirst : (q.core.registers.sp - 1).toNat < q.memory.capacity := by
    rw [first, pushed.capacity]
    exact room _ (by omega) (by omega)
  have insideSecond : (q.core.registers.sp - 2).toNat < q.memory.capacity := by
    rw [second, pushed.capacity]
    exact room _ (by omega) (by omega)
  refine ⟨push_of_inside q word (by simp [Inside, insideFirst, insideSecond]), ?_⟩
  obtain ⟨high, low⟩ := peek_pushBytes q (highByte word) (lowByte word)
    (by simp [Inside, insideFirst, insideSecond])
  have length : (words ++ [word]).length = words.length + 1 := List.length_append
  constructor
  case core =>
    change ({ q.core with registers := { q.core.registers with sp := _ } } : Core) = _
    rw [second, pushed.core, length]
    rfl
  case ports => exact pushed.ports
  case capacity => exact (q.capacity_pushBytes _ _).trans pushed.capacity
  case holds =>
    intro k inside
    rcases Nat.lt_or_ge k words.length with earlier | last
    · have kept {i : Nat} (positive : 1 ≤ i) (above : i ≤ 2 * words.length) :
          (q.pushBytes (highByte word) (lowByte word)).peek (below p.core.registers.sp i) =
            q.peek (below p.core.registers.sp i) := by
        refine peek_pushBytes_of_ne q _ _ ?_ ?_
        · rw [first]
          exact (below_ne positive (by omega) (by omega)).symm
        · rw [second]
          exact (below_ne positive (by omega) (by omega)).symm
      rw [kept (by omega) (by omega), kept (by omega) (by omega),
        List.getElem_append_left earlier]
      exact pushed.holds k earlier
    · obtain rfl : k = words.length := by omega
      rw [List.getElem_concat_length rfl, ← first, ← second]
      exact ⟨high, low⟩
  case outside =>
    intro address apart
    rw [length] at apart
    refine (Operation.byte?_pushBytes_of_ne q _ _ ?_).trans
      (pushed.outside address fun i positive bound => apart i positive (by omega))
    rw [first, second]
    intro stored among
    obtain rfl | rfl : stored = _ ∨ stored = _ := by simpa using among
    · exact apart _ (by omega) (by omega)
    · exact apart _ (by omega) (by omega)

theorem Pushed.pushAll {before : List UInt16} (pushed : p.Pushed before q)
    (words : List UInt16) (depth : (before ++ words).length ≤ 32768)
    (room : p.HasRoom p.core.registers.sp (before ++ words).length) :
    ∃ r, pushAll words q = .ok () r ∧ p.Pushed (before ++ words) r := by
  induction words generalizing before q with
  | nil =>
      rw [List.append_nil]
      exact ⟨q, rfl, pushed⟩
  | cons word later ih =>
      have split : before ++ word :: later = before ++ [word] ++ later :=
        List.append_cons before word later
      rw [List.length_append, List.length_cons] at depth
      rw [split] at room ⊢
      obtain ⟨done, more⟩ := pushed.push word (by omega)
        (room.mono (by simp only [List.length_append, List.length_singleton]; omega))
      obtain ⟨r, rest, all⟩ := ih more (by simp; omega) room
      exact ⟨r, (bind_of_ok done).trans rest, all⟩

/-- Popping takes the words from the last one back to the first, and SP to the top. -/
theorem popAll_of_holds {top : UInt16} (holds : q.HoldsWords top words)
    (sp : q.core.registers.sp = below top (2 * words.length))
    (room : q.HasRoom top words.length) :
    popAll words.length q = .ok words.reverse (q.setSP top) := by
  induction words using List.reverseRecOn generalizing q with
  | nil =>
      rw [List.length_nil, Nat.mul_zero, below_zero] at sp
      rw [← sp]
      rfl
  | append_singleton earlier word ih =>
      have length : (earlier ++ [word]).length = earlier.length + 1 := List.length_append
      rw [length] at sp room ⊢
      have upper : q.core.registers.sp + 1 = below top (2 * earlier.length + 1) := by
        rw [sp]
        exact below_add top (2 * earlier.length + 1) 1
      have after : q.core.registers.sp + 2 = below top (2 * earlier.length) := by
        rw [sp]
        exact below_add top (2 * earlier.length) 2
      obtain ⟨high, low⟩ := holds earlier.length (by omega)
      have inside : q.Inside [q.core.registers.sp, q.core.registers.sp + 1] := by
        intro address among
        obtain rfl | rfl : address = _ ∨ address = _ := by simpa using among
        · rw [sp]
          exact room _ (by omega) (by omega)
        · rw [upper]
          exact room _ (by omega) (by omega)
      have popped : pop q = .ok word (q.setSP (below top (2 * earlier.length))) := by
        rw [pop_of_inside q inside, upper, after, high, sp, Nat.mul_succ, low,
          List.getElem_concat_length rfl, joinBytes_highByte_lowByte]
      have rest : popAll earlier.length (q.setSP (below top (2 * earlier.length))) =
          .ok earlier.reverse (q.setSP top) := by
        refine ih (fun k inside => ?_) rfl (room.mono (Nat.le_succ _))
        have held := holds k (by omega)
        rwa [List.getElem_append_left inside] at held
      rw [List.reverse_append]
      exact (bind_of_ok popped).trans ((bind_of_ok rest).trans rfl)

/-- Pushing then popping is the identity on everything but the bytes below SP, which keep the
words, and after every push SP and the bytes are where the words so far have put them. -/
theorem stack_is_last_in_first_out (p : Processor σ) (words : List UInt16)
    (depth : words.length ≤ 32768) (room : p.HasRoom p.core.registers.sp words.length) :
    (∀ k ≤ words.length, ∃ partway, pushAll (words.take k) p = .ok () partway ∧
        p.Pushed (words.take k) partway) ∧
      ∃ pushed, pushAll words p = .ok () pushed ∧ p.Pushed words pushed ∧
        popAll words.length pushed = .ok words.reverse { p with memory := pushed.memory } := by
  refine ⟨fun k bound => ?_, ?_⟩
  · have length : (words.take k).length = k := List.length_take_of_le bound
    exact (Pushed.nil p).pushAll (words.take k) (by rw [List.nil_append]; omega)
      (by rw [List.nil_append, length]; exact room.mono bound)
  · obtain ⟨pushed, done, all⟩ := (Pushed.nil p).pushAll words depth room
    have popped := popAll_of_holds all.holds all.sp fun i positive bound => by
      rw [all.capacity]
      exact room i positive bound
    have back : pushed.setSP p.core.registers.sp = { p with memory := pushed.memory } := by
      rw [setSP, mapRegisters, all.core, all.ports]
      rfl
    exact ⟨pushed, done, all, popped.trans (congrArg _ back)⟩

def atThree : Processor Unit :=
  (Processor.new (.zeroed 65536) ⟨(), none, none⟩).setSP 3

/-- The second word lies across the ends of the address space, its high byte at 0000. -/
theorem stack_is_last_in_first_out_straddling :
    ∃ pushed, pushAll [0x1234, 0xABCD] atThree = .ok () pushed ∧
      pushed.core.registers.sp = 0xFFFF ∧ pushed.peek 0x0000 = 0xAB ∧
      pushed.peek 0xFFFF = 0xCD ∧
      popAll 2 pushed = .ok [0xABCD, 0x1234] { atThree with memory := pushed.memory } := by
  have room : atThree.HasRoom atThree.core.registers.sp 2 := fun i _ _ => by
    rw [show atThree.memory.capacity = 65536 from Memory.capacity_zeroed _]
    exact UInt16.toNat_lt _
  obtain ⟨-, pushed, done, all, popped⟩ :=
    stack_is_last_in_first_out atThree [0x1234, 0xABCD] (by decide) room
  obtain ⟨high, low⟩ := all.holds 1 (by decide)
  exact ⟨pushed, done, all.sp, high, low, popped⟩

end Processor

end Intel8080
