import Intel8080.Proofs.Memory.Access

/-!
# Growing a memory

A memory grows by a tail of bytes behind its end. Whatever lies inside the smaller memory is
read and stored in the same way in the larger one, and two memories that agree as far as
the smaller one goes are a memory and its growth.
-/

namespace Intel8080.Memory

variable {m : Memory} {tail : ByteArray}

def grown (m : Memory) (tail : ByteArray) : Memory :=
  ⟨m.bytes ++ tail⟩

@[simp] theorem capacity_grown (m : Memory) (tail : ByteArray) :
    (m.grown tail).capacity = m.capacity + tail.size :=
  ByteArray.size_append

/-! ## Bytes -/

theorem byte?_grown_of_lt {address : Nat} (tail : ByteArray) (h : address < m.capacity) :
    (m.grown tail).byte? address = m.byte? address := by
  change address < m.bytes.size at h
  have inside : address < (m.bytes ++ tail).size := by
    rw [ByteArray.size_append]
    omega
  unfold byte? grown
  rw [dif_pos inside, dif_pos h, ByteArray.getElem_append_left h]

theorem byte?_grown_of_ge {address : Nat} (tail : ByteArray) (h : m.capacity ≤ address) :
    (m.grown tail).byte? address = (Memory.mk tail).byte? (address - m.capacity) := by
  have size : (m.bytes ++ tail).size = m.bytes.size + tail.size := ByteArray.size_append
  change m.bytes.size ≤ address at h
  unfold byte? grown capacity
  by_cases inside : address < (m.bytes ++ tail).size
  · rw [dif_pos inside, dif_pos (show address - m.bytes.size < tail.size by omega),
      ByteArray.getElem_append_right h]
  · rw [dif_neg inside, dif_neg (show ¬ address - m.bytes.size < tail.size by omega)]

theorem byteAt_grown {address : UInt16} (tail : ByteArray) (h : address.toNat < m.capacity) :
    (m.grown tail).byteAt address = m.byteAt address := by
  rw [byteAt, byteAt, byte?_grown_of_lt tail h]

theorem store_grown {address : UInt16} (tail : ByteArray) (value : UInt8)
    (h : address.toNat < m.capacity) :
    (m.grown tail).store address value = (m.store address value).grown tail := by
  apply ext_byte?
  · simp
  · intro other
    by_cases inside : other < m.capacity
    · rw [byte?_grown_of_lt tail (by simpa using inside)]
      by_cases same : address.toNat = other
      · subst same
        rw [byte?_store_self value h, byte?_store_self value (by simp; omega)]
      · rw [byte?_store_of_ne _ value same, byte?_store_of_ne _ value same,
          byte?_grown_of_lt tail inside]
    · have behind : m.capacity ≤ other := Nat.not_lt.mp inside
      rw [byte?_store_of_ne _ value (by omega), byte?_grown_of_ge tail behind,
        byte?_grown_of_ge tail (by simpa using behind), capacity_store]

/-! ## Memories that agree -/

theorem exists_grown {small large : Memory} (size : small.capacity ≤ large.capacity)
    (agree : ∀ address < small.capacity, large.byte? address = small.byte? address) :
    ∃ tail, large = small.grown tail := by
  refine ⟨large.bytes.extract small.capacity large.capacity, ?_⟩
  have length : (large.bytes.extract small.capacity large.capacity).size =
      large.capacity - small.capacity := by
    rw [ByteArray.size_extract]
    exact congrArg (· - small.capacity) (Nat.min_self _)
  apply ext_byte?
  · rw [capacity_grown, length]
    omega
  · intro address
    by_cases inside : address < small.capacity
    · rw [byte?_grown_of_lt _ inside, agree address inside]
    · have behind : small.capacity ≤ address := Nat.not_lt.mp inside
      rw [byte?_grown_of_ge _ behind]
      unfold byte?
      by_cases within : address < large.bytes.size
      · have shifted : address - small.capacity <
            (large.bytes.extract small.capacity large.capacity).size := by
          rw [length]
          change address < large.capacity at within
          omega
        rw [dif_pos within, dif_pos shifted]
        simp only [ByteArray.getElem_extract, Nat.add_sub_cancel' behind]
      · rw [dif_neg within, dif_neg]
        rw [length]
        change ¬ address < large.capacity at within
        omega

theorem exists_grown_of_le {capacity : Nat} (h : capacity ≤ m.capacity) :
    ∃ small tail, small.capacity = capacity ∧ m = grown small tail := by
  refine ⟨⟨m.bytes.extract 0 capacity⟩, m.bytes.extract capacity m.bytes.size, ?_, ?_⟩
  · change (m.bytes.extract 0 capacity).size = capacity
    rw [ByteArray.size_extract]
    change capacity ≤ m.bytes.size at h
    omega
  · obtain ⟨bytes⟩ := m
    change capacity ≤ bytes.size at h
    simp [grown, Nat.max_eq_right h]

end Intel8080.Memory
