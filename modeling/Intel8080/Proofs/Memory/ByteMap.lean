import Mathlib.Data.List.Induction
import Intel8080.Proofs.Memory.Loading

/-!
# Memory as a map of bytes

A memory of a given capacity is a map from the addresses below it to bytes. Every access names
a run of addresses; it succeeds exactly if the run ends inside memory, and otherwise says which
run was refused and changes nothing. After any accesses an address holds what has last been
stored there, or zero.
-/

namespace Intel8080

inductive MemoryAccess where
  | load (data : ByteArray) (address : Nat)
  | write (address : UInt16) (value : UInt8)
  | read (address : UInt16)
  | check (address : UInt16)
  | slice (start length : Nat)

inductive MemoryReply where
  | done
  | byte (value : UInt8)
  | bytes (data : ByteArray)

namespace MemoryAccess

/-! ## What accesses mean -/

def start : MemoryAccess → Nat
  | .load _ address => address
  | .write address _ | .read address | .check address => address.toNat
  | .slice start _ => start

def length : MemoryAccess → Nat
  | .load data _ => data.size
  | .write _ _ | .read _ | .check _ => 1
  | .slice _ length => length

/-- All bytes of the access lie inside a memory of some capacity. The sum is exact. -/
def Fits (capacity : Nat) (access : MemoryAccess) : Prop :=
  access.start + access.length ≤ capacity

instance (capacity : Nat) : DecidablePred (Fits capacity) := fun access =>
  inferInstanceAs (Decidable (access.start + access.length ≤ capacity))

/-- The byte that the access stores at an address, if it stores one there. -/
def stored? (i : Nat) : MemoryAccess → Option UInt8
  | .load data address => if address ≤ i then data.data.toList[i - address]? else none
  | .write address value => if address.toNat = i then some value else none
  | .read _ | .check _ | .slice _ _ => none

def reply (contents : Nat → UInt8) : MemoryAccess → MemoryReply
  | .read address => .byte (contents address.toNat)
  | .slice start length => .bytes ⟨((List.range' start length).map contents).toArray⟩
  | .load _ _ | .write _ _ | .check _ => .done

end MemoryAccess

/-- The byte that the accesses have last stored at an address, those that do not fit left out,
and zero if there is none. -/
def lastStored (capacity : Nat) (accesses : List MemoryAccess) (i : Nat) : UInt8 :=
  ((accesses.filter (MemoryAccess.Fits capacity)).reverse.findSome? fun access =>
    access.stored? i).getD 0

theorem lastStored_concat (capacity : Nat) (accesses : List MemoryAccess) (access : MemoryAccess)
    (i : Nat) :
    lastStored capacity (accesses ++ [access]) i =
      if access.Fits capacity then (access.stored? i).getD (lastStored capacity accesses i)
      else lastStored capacity accesses i := by
  unfold lastStored
  by_cases fits : access.Fits capacity
  · rw [List.filter_append, List.reverse_append, if_pos fits]
    cases stored : access.stored? i <;> simp [fits, stored]
  · rw [List.filter_append, if_neg fits]
    simp [fits]

namespace Memory

def perform (m : Memory) : MemoryAccess → Except OutOfBounds MemoryReply × Memory
  | .load data address =>
      match m.load data address with
      | .ok loaded => (.ok .done, loaded)
      | .error refusal => (.error refusal, m)
  | .write address value =>
      match m.write address value with
      | .ok written => (.ok .done, written)
      | .error refusal => (.error refusal, m)
  | .read address => ((m.read address).map .byte, m)
  | .check address => ((m.check address).map fun _ => .done, m)
  | .slice start length => ((m.slice start length).map .bytes, m)

def performAll (m : Memory) (accesses : List MemoryAccess) : Memory :=
  accesses.foldl (fun m access => (m.perform access).2) m

structure Holds (m : Memory) (capacity : Nat) (contents : Nat → UInt8) : Prop where
  capacity_eq : m.capacity = capacity
  byte?_eq : ∀ i < capacity, m.byte? i = some (contents i)

variable {m next : Memory} {capacity : Nat} {contents : Nat → UInt8} {access : MemoryAccess}

theorem holds_zeroed (capacity : Nat) : (zeroed capacity).Holds capacity fun _ => 0 where
  capacity_eq := capacity_zeroed capacity
  byte?_eq i inside := by rw [byte?_zeroed, if_pos inside]

/-! ## One access -/

theorem perform_of_not_fits (misfit : ¬ access.Fits m.capacity) :
    m.perform access = (.error ⟨access.start, access.length, m.capacity⟩, m) := by
  have beyond : m.capacity < access.start + access.length := Nat.not_le.mp misfit
  cases access with
  | load data address =>
      have beyond : m.capacity < address + data.size := beyond
      rw [perform, load_of_gt beyond]
      rfl
  | write address value =>
      have outside : m.capacity ≤ address.toNat := Nat.lt_succ_iff.mp beyond
      rw [perform, write, check_of_ge outside]
      rfl
  | read address =>
      have outside : m.capacity ≤ address.toNat := Nat.lt_succ_iff.mp beyond
      rw [perform, read_of_ge outside]
      rfl
  | check address =>
      have outside : m.capacity ≤ address.toNat := Nat.lt_succ_iff.mp beyond
      rw [perform, check_of_ge outside]
      rfl
  | slice start length =>
      have misfit : ¬ start + length ≤ m.capacity := misfit
      rw [perform, slice, checkRange, if_neg misfit]
      rfl

theorem byte?_of_load_eq_stored? {data : ByteArray} {address : Nat}
    (h : m.load data address = .ok next) (i : Nat) :
    next.byte? i = ((MemoryAccess.load data address).stored? i).or (m.byte? i) := by
  have size : data.data.toList.length = data.size := data.data.length_toList
  rw [byte?_of_load h, MemoryAccess.stored?, byte?_eq_getElem?]
  by_cases above : address ≤ i
  · by_cases inside : i < address + data.size
    · have present : i - address < data.data.toList.length := by omega
      rw [if_pos ⟨above, inside⟩, if_pos above, List.getElem?_eq_getElem present, Option.some_or]
    · have absent : data.data.toList.length ≤ i - address := by omega
      rw [if_neg fun both => inside both.2, if_pos above, List.getElem?_eq_none absent,
        Option.none_or]
  · rw [if_neg fun both => above both.1, if_neg above, Option.none_or]

theorem perform_of_fits (holds : m.Holds capacity contents) (fits : access.Fits capacity) :
    ∃ next, m.perform access = (.ok (access.reply contents), next) ∧
      next.capacity = m.capacity ∧
      ∀ i, next.byte? i = (access.stored? i).or (m.byte? i) := by
  cases access with
  | load data address =>
      have inside : address + data.size ≤ m.capacity := holds.capacity_eq ▸ fits
      have loaded := load_of_le inside
      refine ⟨_, ?_, capacity_of_load loaded, byte?_of_load_eq_stored? loaded⟩
      rw [perform, loaded]
      rfl
  | write address value =>
      have inside : address.toNat < m.capacity := holds.capacity_eq ▸ fits
      refine ⟨m.store address value, ?_, capacity_store m address value, fun i => ?_⟩
      · rw [perform, write, check_of_lt inside]
        rfl
      · rw [MemoryAccess.stored?]
        by_cases same : address.toNat = i
        · subst same
          rw [byte?_store_self value inside, if_pos rfl, Option.some_or]
        · rw [byte?_store_of_ne m value same, if_neg same, Option.none_or]
  | read address =>
      refine ⟨m, ?_, rfl, fun i => Option.none_or.symm⟩
      rw [perform, read_of_byte? (holds.byte?_eq address.toNat fits)]
      rfl
  | check address =>
      have inside : address.toNat < m.capacity := holds.capacity_eq ▸ fits
      refine ⟨m, ?_, rfl, fun i => Option.none_or.symm⟩
      rw [perform, check_of_lt inside]
      rfl
  | slice start length =>
      have inside : start + length ≤ m.capacity := holds.capacity_eq ▸ fits
      refine ⟨m, ?_, rfl, fun i => Option.none_or.symm⟩
      have found : m.bytes.extract start (start + length) =
          ⟨((List.range' start length).map contents).toArray⟩ := by
        apply ByteArray.ext
        apply Array.toList_inj.mp
        rw [toList_extract inside]
        refine List.map_congr_left fun i among => ?_
        have below : i < capacity := by
          have bounds := List.mem_range'_1.mp among
          have inside : start + length ≤ capacity := fits
          omega
        rw [holds.byte?_eq i below, Option.getD_some]
      rw [perform, slice, checkRange, if_pos inside, MemoryAccess.reply, ← found]
      rfl

theorem Holds.perform (holds : m.Holds capacity contents) (access : MemoryAccess) :
    (m.perform access).2.Holds capacity fun i =>
      if access.Fits capacity then (access.stored? i).getD (contents i) else contents i := by
  by_cases fits : access.Fits capacity
  · obtain ⟨next, same, size, bytes⟩ := perform_of_fits holds fits
    rw [same]
    refine ⟨size.trans holds.capacity_eq, fun i inside => ?_⟩
    rw [if_pos fits, bytes, holds.byte?_eq i inside]
    cases access.stored? i <;> rfl
  · rw [perform_of_not_fits (holds.capacity_eq ▸ fits)]
    refine ⟨holds.capacity_eq, fun i inside => ?_⟩
    rw [if_neg fits, holds.byte?_eq i inside]

/-! ## Any accesses -/

/-- Memory holds what has last been stored. -/
theorem performAll_holds (capacity : Nat) (accesses : List MemoryAccess) :
    ((zeroed capacity).performAll accesses).Holds capacity (lastStored capacity accesses) := by
  induction accesses using List.reverseRecOn with
  | nil => exact holds_zeroed capacity
  | append_singleton earlier access ih =>
      have after := ih.perform access
      rw [performAll, List.foldl_append]
      refine ⟨after.capacity_eq, fun i inside => ?_⟩
      rw [lastStored_concat]
      exact after.byte?_eq i inside

/-- The memory is a bounded map of bytes with given contents: an access succeeds exactly if it
fits, with the reply that the contents give and a change of the bytes that it stores only. A
refusal names the run and the capacity, and leaves the memory as it is. -/
structure IsByteMap (m : Memory) (capacity : Nat) (contents : Nat → UInt8) : Prop where
  holds : m.Holds capacity contents
  succeeds : ∀ access : MemoryAccess, access.Fits capacity →
    ∃ next, m.perform access = (.ok (access.reply contents), next) ∧
      next.capacity = capacity ∧ ∀ i, next.byte? i = (access.stored? i).or (m.byte? i)
  refuses : ∀ access : MemoryAccess, ¬ access.Fits capacity →
    m.perform access = (.error ⟨access.start, access.length, capacity⟩, m)

theorem Holds.isByteMap (holds : m.Holds capacity contents) : m.IsByteMap capacity contents where
  holds := holds
  succeeds _ fits := by
    obtain ⟨next, same, size, bytes⟩ := perform_of_fits holds fits
    exact ⟨next, same, size.trans holds.capacity_eq, bytes⟩
  refuses access misfit := by
    obtain ⟨rfl, -⟩ := holds
    exact perform_of_not_fits misfit

/-! ## Runs given by machine words -/

def checkedSum (x y : UInt64) : Option UInt64 :=
  if x ≤ x + y then some (x + y) else none

/-- The check of a run whose end is computed in a word. -/
def checkWords (m : Memory) (address length : UInt64) : Except OutOfBounds Unit :=
  match checkedSum address length with
  | some last =>
      if last.toNat ≤ m.capacity then .ok ()
      else .error ⟨address.toNat, length.toNat, m.capacity⟩
  | none => .error ⟨address.toNat, length.toNat, m.capacity⟩

theorem checkedSum_of_lt {x y : UInt64} (h : x.toNat + y.toNat < UInt64.size) :
    checkedSum x y = some (x + y) ∧ (x + y).toNat = x.toNat + y.toNat := by
  have unwrapped : (x + y).toNat = x.toNat + y.toNat := by
    rw [UInt64.toNat_add]
    exact Nat.mod_eq_of_lt h
  refine ⟨if_pos ?_, unwrapped⟩
  rw [UInt64.le_iff_toNat_le, unwrapped]
  exact Nat.le_add_right _ _

theorem checkedSum_of_ge {x y : UInt64} (h : UInt64.size ≤ x.toNat + y.toNat) :
    checkedSum x y = none := by
  refine if_neg ?_
  have smallX : x.toNat < UInt64.size := x.toNat_lt
  have smallY : y.toNat < UInt64.size := y.toNat_lt
  rw [UInt64.le_iff_toNat_le, UInt64.toNat_add]
  change ¬ x.toNat ≤ (x.toNat + y.toNat) % UInt64.size
  have wrapped : (x.toNat + y.toNat) % UInt64.size = x.toNat + y.toNat - UInt64.size := by
    rw [Nat.mod_eq_sub_mod h]
    exact Nat.mod_eq_of_lt (by omega)
  omega

theorem checkWords_eq (h : m.capacity < UInt64.size) (address length : UInt64) :
    m.checkWords address length = m.checkRange address.toNat length.toNat := by
  rcases Nat.lt_or_ge (address.toNat + length.toNat) UInt64.size with small | large
  · obtain ⟨sum, unwrapped⟩ := checkedSum_of_lt small
    simp only [checkWords, checkRange, sum, unwrapped]
  · have outside : ¬ address.toNat + length.toNat ≤ m.capacity := by omega
    simp only [checkWords, checkedSum_of_ge large, checkRange, if_neg outside]

end Memory

/-! ## Through a processor -/

namespace Processor

variable {σ : Type}

def access (p : Processor σ) : MemoryAccess → Except OutOfBounds MemoryReply × Processor σ
  | .load data address =>
      match p.load data address with
      | .ok loaded => (.ok .done, loaded)
      | .error refusal => (.error refusal, p)
  | access =>
      ((p.memory.perform access).1, { p with memory := (p.memory.perform access).2 })

def accessAll (p : Processor σ) (accesses : List MemoryAccess) : Processor σ :=
  accesses.foldl (fun p access => (p.access access).2) p

theorem access_eq (p : Processor σ) (access : MemoryAccess) :
    p.access access =
      ((p.memory.perform access).1, { p with memory := (p.memory.perform access).2 }) := by
  cases access with
  | load data address =>
      rw [Processor.access, Memory.perform]
      cases loaded : p.memory.load data address with
      | ok memory => rw [load_of_ok loaded]
      | error refusal => rw [load_of_error loaded]
  | _ => rfl

theorem accessAll_eq (p : Processor σ) (accesses : List MemoryAccess) :
    p.accessAll accesses = { p with memory := p.memory.performAll accesses } := by
  induction accesses generalizing p with
  | nil => rfl
  | cons access later ih =>
      have after := ih (p.access access).2
      rw [access_eq] at after
      rw [accessAll, List.foldl_cons, access_eq]
      exact after

end Processor

end Intel8080
