import Intel8080.Fault
import Intel8080.Text.Record

/-!
# Memory

A flat array of bytes whose capacity is fixed when it is made. Every access is
checked against that capacity before anything happens, so a memory smaller than
the address space reports a stray access instead of wrapping.

The view of a memory is `byte?`, the byte at an address or nothing past the end.
-/

namespace Intel8080

structure Memory where
  bytes : ByteArray

namespace Memory

instance : DecidableEq Memory := fun m n =>
  decidable_of_decidable_of_iff (p := m.bytes.data = n.bytes.data)
    ⟨fun same => congrArg Memory.mk (ByteArray.ext same), fun same => same ▸ rfl⟩

def addressSpace : Nat := 0x10000

def capacity (m : Memory) : Nat :=
  m.bytes.size

def byte? (m : Memory) (address : Nat) : Option UInt8 :=
  if h : address < m.bytes.size then some m.bytes[address] else none

def zeroed (capacity : Nat) : Memory :=
  ⟨⟨Array.replicate capacity 0⟩⟩

/-- Refuses an access whose bytes do not all lie inside memory. An access of no
bytes is inside up to and including the end. -/
def checkRange (m : Memory) (address length : Nat) : Except OutOfBounds Unit :=
  if address + length ≤ m.capacity then .ok () else .error ⟨address, length, m.capacity⟩

def check (m : Memory) (address : UInt16) : Except OutOfBounds Unit :=
  m.checkRange address.toNat 1

def read (m : Memory) (address : UInt16) : Except OutOfBounds UInt8 :=
  if h : address.toNat < m.bytes.size then
    .ok m.bytes[address.toNat]
  else
    .error ⟨address.toNat, 1, m.capacity⟩

/-- Replaces one byte. Outside memory nothing changes; callers check first. -/
def store (m : Memory) (address : UInt16) (value : UInt8) : Memory :=
  ⟨m.bytes.set! address.toNat value⟩

def write (m : Memory) (address : UInt16) (value : UInt8) : Except OutOfBounds Memory := do
  m.check address
  return m.store address value

/-- Replaces a run of bytes, or refuses one that does not fit as a whole. -/
def load (m : Memory) (data : ByteArray) (address : Nat) : Except OutOfBounds Memory := do
  m.checkRange address data.size
  return ⟨data.copySlice 0 m.bytes address data.size⟩

def slice (m : Memory) (start length : Nat) : Except OutOfBounds ByteArray := do
  m.checkRange start length
  return m.bytes.extract start (start + length)

def debugText (m : Memory) : String :=
  Record.abridged "Memory" [("capacity", s!"{m.capacity}")]

end Memory

end Intel8080
