import Intel8080.Processor.Basic
import Intel8080.Proofs.Memory.Growth

/-!
# Loading into a memory

A load replaces a run of bytes as a whole, or it is refused as a whole. The capacity stays,
and what fits into a memory is loaded in the same way into a larger one.
-/

namespace Intel8080

namespace Memory

variable {m loaded : Memory} {data : ByteArray} {address : Nat}

theorem load_of_le (h : address + data.size ≤ m.capacity) :
    m.load data address =
      .ok ⟨m.bytes.extract 0 address ++ data ++
        m.bytes.extract (address + data.size) m.bytes.size⟩ := by
  have spliced : data.copySlice 0 m.bytes address data.size =
      m.bytes.extract 0 address ++ data ++
        m.bytes.extract (address + data.size) m.bytes.size := by
    rw [ByteArray.copySlice_eq_append, Nat.zero_add, ByteArray.extract_zero_size]
    change _ ++ m.bytes.extract (address + min data.size (data.size - 0)) m.bytes.size = _
    rw [Nat.sub_zero, Nat.min_self]
  rw [load, checkRange, if_pos h, ← spliced]
  rfl

theorem load_of_gt (h : m.capacity < address + data.size) :
    m.load data address = .error ⟨address, data.size, m.capacity⟩ := by
  rw [load, checkRange, if_neg (Nat.not_le.mpr h)]
  rfl

theorem le_of_load (h : m.load data address = .ok loaded) :
    address + data.size ≤ m.capacity := by
  by_cases inside : address + data.size ≤ m.capacity
  · exact inside
  · rw [load_of_gt (Nat.not_le.mp inside)] at h
    cases h

theorem capacity_of_load (h : m.load data address = .ok loaded) :
    loaded.capacity = m.capacity := by
  have inside := le_of_load h
  rw [load_of_le inside] at h
  cases h
  change address + data.size ≤ m.bytes.size at inside
  simp only [capacity, ByteArray.size_append, ByteArray.size_extract]
  omega

theorem byte?_eq_getElem? (m : Memory) (address : Nat) :
    m.byte? address = m.bytes.data.toList[address]? := by
  rw [byte?]
  split
  case isTrue inside =>
    rw [List.getElem?_eq_getElem (by simpa using inside)]
    rfl
  case isFalse outside =>
    rw [List.getElem?_eq_none (by simpa using outside)]

/-- A load replaces exactly the bytes that it addresses. -/
theorem byte?_of_load (h : m.load data address = .ok loaded) (i : Nat) :
    loaded.byte? i =
      if address ≤ i ∧ i < address + data.size then byte? ⟨data⟩ (i - address) else m.byte? i := by
  have inside := le_of_load h
  rw [load_of_le inside] at h
  cases h
  change address + data.size ≤ m.bytes.size at inside
  have before : min address m.bytes.size = address := by omega
  simp only [byte?_eq_getElem?, ByteArray.data_append, ByteArray.data_extract, Array.toList_append,
    Array.toList_extract, List.getElem?_append, List.extract_eq_take_drop, List.length_append,
    List.length_take, List.drop_zero, Nat.sub_zero, Array.length_toList, ByteArray.size_data,
    before]
  rcases Nat.lt_or_ge i address with below | above
  · rw [if_pos (by omega), if_pos below, if_neg (by omega), List.getElem?_take_of_lt below]
  · rcases Nat.lt_or_ge i (address + data.size) with within | beyond
    · rw [if_pos within, if_neg (by omega), if_pos ⟨above, within⟩]
    · have reached : address + data.size + (i - (address + data.size)) = i := by omega
      rw [if_neg (by omega), if_neg (by omega)]
      by_cases last : i < m.bytes.size
      · rw [List.getElem?_take_of_lt (by omega), List.getElem?_drop, reached]
      · rw [List.getElem?_eq_none (by simp; omega), List.getElem?_eq_none (by simp; omega)]

/-! ## Reading a run of bytes -/

theorem toList_extract {m : Memory} {start length : Nat} (h : start + length ≤ m.capacity) :
    (m.bytes.extract start (start + length)).data.toList =
      (List.range' start length).map fun address => (m.byte? address).getD 0 := by
  change start + length ≤ m.bytes.size at h
  apply List.ext_getElem
  · simp
    omega
  · intro i inside _
    have small : i < length := by
      simp at inside
      omega
    have present : start + i < m.bytes.size := by omega
    simp [byte?, present, ByteArray.getElem_eq_getElem_data]

/-! ## On a larger memory -/

theorem load_grown (tail : ByteArray) (h : m.load data address = .ok loaded) :
    (m.grown tail).load data address = .ok (loaded.grown tail) := by
  have inside := le_of_load h
  have larger : address + data.size ≤ (m.grown tail).capacity := by
    rw [capacity_grown]
    omega
  rw [load_of_le inside] at h
  cases h
  rw [load_of_le larger]
  change address + data.size ≤ m.bytes.size at inside
  have before : (m.bytes ++ tail).extract 0 address = m.bytes.extract 0 address := by
    rw [ByteArray.extract_append]
    simp [Nat.sub_eq_zero_of_le (show address ≤ m.bytes.size by omega)]
  have behind : (m.bytes ++ tail).extract (address + data.size) (m.bytes ++ tail).size =
      m.bytes.extract (address + data.size) m.bytes.size ++ tail := by
    have whole : m.bytes.extract (address + data.size) (m.bytes.size + tail.size) =
        m.bytes.extract (address + data.size) m.bytes.size := by
      apply ByteArray.ext
      simp only [ByteArray.data_extract, Array.extract_eq_extract_right, ByteArray.size_data]
      omega
    rw [ByteArray.extract_append, ByteArray.size_append, whole, Nat.sub_eq_zero_of_le inside,
      Nat.add_sub_cancel_left, ByteArray.extract_zero_size]
  simp only [grown, before, behind, ByteArray.append_assoc]

theorem write_grown {patched : Memory} {target : UInt16} {value : UInt8} (tail : ByteArray)
    (h : m.write target value = .ok patched) :
    (m.grown tail).write target value = .ok (patched.grown tail) := by
  rcases Nat.lt_or_ge target.toNat m.capacity with inside | outside
  · have larger : target.toNat < (m.grown tail).capacity := by
      rw [capacity_grown]
      omega
    rw [write, check_of_lt inside] at h
    cases h
    rw [write, check_of_lt larger, ← store_grown tail value inside]
    rfl
  · rw [write, check_of_ge outside] at h
    cases h

theorem exists_zeroed_grown {small large : Nat} (h : small ≤ large) :
    ∃ tail, zeroed large = (zeroed small).grown tail := by
  refine ⟨⟨Array.replicate (large - small) 0⟩, ?_⟩
  refine congrArg Memory.mk (ByteArray.ext ?_)
  rw [ByteArray.data_append]
  change Array.replicate large 0 = Array.replicate small 0 ++ Array.replicate (large - small) 0
  rw [Array.replicate_append_replicate, Nat.add_sub_cancel' h]

end Memory

/-! ## Into the memory of a processor -/

namespace Processor

variable {σ : Type} {p q : Processor σ} {data : ByteArray} {address : Nat}

theorem load_of_ok {memory : Memory} (h : p.memory.load data address = .ok memory) :
    p.load data address = .ok { p with memory } := by
  simp only [load, h, bind, Except.bind]
  rfl

theorem load_of_error {access : OutOfBounds} (h : p.memory.load data address = .error access) :
    p.load data address = .error access := by
  simp only [load, h, bind, Except.bind]

theorem exists_memory_of_load (h : p.load data address = .ok q) :
    ∃ memory, p.memory.load data address = .ok memory ∧ q = { p with memory } := by
  cases loaded : p.memory.load data address with
  | error access => cases (load_of_error loaded).symm.trans h
  | ok memory =>
      cases (load_of_ok loaded).symm.trans h
      exact ⟨memory, rfl, rfl⟩

end Processor

end Intel8080
