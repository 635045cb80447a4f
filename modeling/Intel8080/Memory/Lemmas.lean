import Intel8080.Memory.Basic

/-!
# Laws of memory

What each operation does to the bytes and to the capacity. The capacity never
changes; a store or a load replaces exactly the bytes that it addresses.
-/

namespace Intel8080.Memory

/-! ## The view -/

theorem byte?_of_lt {m : Memory} {address : Nat} (h : address < m.capacity) :
    ∃ value, m.byte? address = some value :=
  ⟨_, dif_pos h⟩

theorem byte?_eq_none_iff {m : Memory} {address : Nat} :
    m.byte? address = none ↔ m.capacity ≤ address := by
  unfold byte? capacity
  split <;> simp <;> omega

theorem ext_byte? {m n : Memory} (size : m.capacity = n.capacity)
    (same : ∀ address, m.byte? address = n.byte? address) : m = n := by
  obtain ⟨a⟩ := m
  obtain ⟨b⟩ := n
  congr 1
  apply ByteArray.ext_getElem size
  intro i ha hb
  have agree := same i
  simp only [byte?, dif_pos ha, dif_pos hb] at agree
  exact Option.some.inj agree

/-! ## An empty memory -/

@[simp] theorem capacity_zeroed (n : Nat) : (zeroed n).capacity = n :=
  Array.size_replicate

theorem byte?_zeroed (n address : Nat) :
    (zeroed n).byte? address = if address < n then some 0 else none := by
  have size : (zeroed n).bytes.size = n := capacity_zeroed n
  unfold byte?
  by_cases h : address < n
  · rw [dif_pos (by rw [size]; exact h), if_pos h]
    simp [zeroed, ByteArray.getElem_eq_getElem_data]
  · rw [dif_neg (by rw [size]; exact h), if_neg h]

/-! ## Reading -/

theorem read_of_byte? {m : Memory} {address : UInt16} {value : UInt8}
    (h : m.byte? address.toNat = some value) : m.read address = .ok value := by
  unfold byte? at h
  unfold read
  split at h
  · rename_i inside
    rw [dif_pos inside, Option.some.inj h]
  · cases h

theorem read_of_ge {m : Memory} {address : UInt16} (h : m.capacity ≤ address.toNat) :
    m.read address = .error ⟨address.toNat, 1, m.capacity⟩ :=
  dif_neg (Nat.not_lt.mpr h)

theorem check_of_lt {m : Memory} {address : UInt16} (h : address.toNat < m.capacity) :
    m.check address = .ok () :=
  if_pos h

theorem check_of_ge {m : Memory} {address : UInt16} (h : m.capacity ≤ address.toNat) :
    m.check address = .error ⟨address.toNat, 1, m.capacity⟩ :=
  if_neg (Nat.not_le.mpr (Nat.lt_succ_of_le h))

/-! ## Storing -/

@[simp] theorem capacity_store (m : Memory) (address : UInt16) (value : UInt8) :
    (m.store address value).capacity = m.capacity :=
  ByteArray.size_set! m.bytes address.toNat value

theorem byte?_store_self {m : Memory} {address : UInt16} (value : UInt8)
    (h : address.toNat < m.capacity) :
    (m.store address value).byte? address.toNat = some value := by
  have inside : address.toNat < (m.bytes.set! address.toNat value).size := by
    rw [ByteArray.size_set!]
    exact h
  unfold byte? store
  rw [dif_pos inside, ByteArray.getElem_set!_self _ _ _ h]

theorem byte?_store_of_ne (m : Memory) {address : UInt16} (value : UInt8) {other : Nat}
    (h : address.toNat ≠ other) : (m.store address value).byte? other = m.byte? other := by
  unfold byte? store
  by_cases inside : other < m.bytes.size
  · rw [dif_pos inside, dif_pos (by rw [ByteArray.size_set!]; exact inside)]
    rw [ByteArray.getElem_set!_ne _ _ _ _ h]
  · rw [dif_neg inside, dif_neg (by rw [ByteArray.size_set!]; exact inside)]

end Intel8080.Memory
