import Intel8080.Memory.Lemmas

/-!
# Accesses in order

An instruction touches a list of addresses one after the other, and the first of
them that lies outside memory decides how it fails. Where all of them lie inside,
reading is total. The two halves below, `firstOutside?` and `byteAt`, are what every
later module says about memory.
-/

namespace Intel8080.Memory

/-- The byte at an address, and zero outside memory. -/
def byteAt (m : Memory) (address : UInt16) : UInt8 :=
  (m.byte? address.toNat).getD 0

/-- The refusal of the first address in a list that lies outside memory. -/
def firstOutside? (m : Memory) (addresses : List UInt16) : Option OutOfBounds :=
  (addresses.find? fun address => m.capacity ≤ address.toNat).map fun address =>
    ⟨address.toNat, 1, m.capacity⟩

/-! ## Single accesses -/

theorem byteAt_of_byte? {m : Memory} {address : UInt16} {value : UInt8}
    (h : m.byte? address.toNat = some value) : m.byteAt address = value := by
  rw [byteAt, h, Option.getD_some]

theorem lt_of_byte? {m : Memory} {address : Nat} {value : UInt8}
    (h : m.byte? address = some value) : address < m.capacity :=
  Nat.lt_of_not_le fun outside => by
    rw [byte?_eq_none_iff.mpr outside] at h
    cases h

theorem byte?_eq_byteAt {m : Memory} {address : UInt16} (h : address.toNat < m.capacity) :
    m.byte? address.toNat = some (m.byteAt address) := by
  obtain ⟨value, held⟩ := byte?_of_lt h
  rw [held, byteAt_of_byte? held]

theorem byteAt_zeroed (capacity : Nat) (address : UInt16) :
    (zeroed capacity).byteAt address = 0 := by
  rw [byteAt, byte?_zeroed]
  split <;> rfl

theorem byteAt_store_self {m : Memory} {address : UInt16} (value : UInt8)
    (h : address.toNat < m.capacity) : (m.store address value).byteAt address = value :=
  byteAt_of_byte? (byte?_store_self value h)

theorem byteAt_store_of_ne (m : Memory) {address other : UInt16} (value : UInt8)
    (h : address ≠ other) : (m.store address value).byteAt other = m.byteAt other := by
  have apart : address.toNat ≠ other.toNat := fun same => h (UInt16.toNat_inj.mp same)
  rw [byteAt, byteAt, byte?_store_of_ne m value apart]

theorem read_of_lt {m : Memory} {address : UInt16} (h : address.toNat < m.capacity) :
    m.read address = .ok (m.byteAt address) := by
  obtain ⟨value, hv⟩ := byte?_of_lt h
  rw [read_of_byte? hv, byteAt_of_byte? hv]

theorem store_comm (m : Memory) {a b : UInt16} (x y : UInt8) (h : a ≠ b) :
    (m.store a x).store b y = (m.store b y).store a x := by
  have apart : a.toNat ≠ b.toNat := fun same => h (UInt16.toNat_inj.mp same)
  apply ext_byte?
  · simp
  · intro address
    by_cases inside : address < m.capacity
    · by_cases ha : a.toNat = address
      · subst ha
        rw [byte?_store_of_ne _ _ apart.symm, byte?_store_self x inside,
          byte?_store_self x (by simpa using inside)]
      · rw [byte?_store_of_ne _ x ha]
        by_cases hb : b.toNat = address
        · subst hb
          rw [byte?_store_self y (by simpa using inside), byte?_store_self y inside]
        · rw [byte?_store_of_ne _ y hb, byte?_store_of_ne _ y hb, byte?_store_of_ne _ x ha]
    · rw [byte?_eq_none_iff.mpr (by simpa using inside),
        byte?_eq_none_iff.mpr (by simpa using inside)]

theorem store_store (m : Memory) (address : UInt16) (x y : UInt8) :
    (m.store address x).store address y = m.store address y := by
  apply ext_byte?
  · simp
  · intro other
    by_cases inside : other < m.capacity
    · by_cases same : address.toNat = other
      · subst same
        rw [byte?_store_self y (by simpa using inside), byte?_store_self y inside]
      · rw [byte?_store_of_ne _ y same, byte?_store_of_ne _ x same, byte?_store_of_ne _ y same]
    · rw [byte?_eq_none_iff.mpr (by simpa using inside),
        byte?_eq_none_iff.mpr (by simpa using inside)]

theorem store_byteAt (m : Memory) (address : UInt16) :
    m.store address (m.byteAt address) = m := by
  apply ext_byte?
  · simp
  · intro other
    by_cases same : address.toNat = other
    · subst same
      rcases Nat.lt_or_ge address.toNat m.capacity with inside | outside
      · rw [byte?_store_self _ inside, byte?_eq_byteAt inside]
      · rw [byte?_eq_none_iff.mpr (by simpa using outside), byte?_eq_none_iff.mpr outside]
    · exact byte?_store_of_ne m _ same

/-! ## Accesses in sequence -/

@[simp] theorem firstOutside?_nil (m : Memory) : m.firstOutside? [] = none := rfl

theorem firstOutside?_cons_of_lt {m : Memory} {address : UInt16} (rest : List UInt16)
    (h : address.toNat < m.capacity) :
    m.firstOutside? (address :: rest) = m.firstOutside? rest := by
  simp [firstOutside?, Nat.not_le.mpr h]

theorem firstOutside?_cons_of_ge {m : Memory} {address : UInt16} (rest : List UInt16)
    (h : m.capacity ≤ address.toNat) :
    m.firstOutside? (address :: rest) = some ⟨address.toNat, 1, m.capacity⟩ := by
  simp [firstOutside?, h]

theorem firstOutside?_append (m : Memory) (first second : List UInt16) :
    m.firstOutside? (first ++ second) =
      (m.firstOutside? first).or (m.firstOutside? second) := by
  induction first with
  | nil => rfl
  | cons address rest ih =>
      rcases Nat.lt_or_ge address.toNat m.capacity with inside | outside
      · rw [List.cons_append, firstOutside?_cons_of_lt _ inside, ih,
          firstOutside?_cons_of_lt _ inside]
      · rw [List.cons_append, firstOutside?_cons_of_ge _ outside,
          firstOutside?_cons_of_ge _ outside, Option.some_or]

theorem firstOutside?_eq_none_iff {m : Memory} {addresses : List UInt16} :
    m.firstOutside? addresses = none ↔ ∀ address ∈ addresses, address.toNat < m.capacity := by
  simp [firstOutside?]

theorem exists_of_firstOutside? {m : Memory} {addresses : List UInt16} {access : OutOfBounds}
    (h : m.firstOutside? addresses = some access) :
    ∃ address ∈ addresses, m.capacity ≤ address.toNat ∧
      access = ⟨address.toNat, 1, m.capacity⟩ := by
  obtain ⟨address, found, rfl⟩ := Option.map_eq_some_iff.mp h
  have outside := List.find?_some found
  exact ⟨address, List.mem_of_find?_eq_some found, of_decide_eq_true outside, rfl⟩

theorem read_eq (m : Memory) (address : UInt16) :
    m.read address =
      match m.firstOutside? [address] with
      | some access => .error access
      | none => .ok (m.byteAt address) := by
  rcases Nat.lt_or_ge address.toNat m.capacity with inside | outside
  · rw [firstOutside?_cons_of_lt _ inside]
    exact read_of_lt inside
  · rw [firstOutside?_cons_of_ge _ outside]
    exact read_of_ge outside

theorem check_eq (m : Memory) (address : UInt16) :
    m.check address =
      match m.firstOutside? [address] with
      | some access => .error access
      | none => .ok () := by
  rcases Nat.lt_or_ge address.toNat m.capacity with inside | outside
  · rw [firstOutside?_cons_of_lt _ inside]
    exact check_of_lt inside
  · rw [firstOutside?_cons_of_ge _ outside]
    exact check_of_ge outside

theorem firstOutside?_of_covering {m : Memory} (addresses : List UInt16)
    (h : addressSpace ≤ m.capacity) : m.firstOutside? addresses = none := by
  rw [firstOutside?_eq_none_iff]
  intro address _
  have small : address.toNat < addressSpace := address.toNat_lt
  omega

end Intel8080.Memory
