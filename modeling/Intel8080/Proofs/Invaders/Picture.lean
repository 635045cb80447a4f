import Mathlib.Algebra.GroupWithZero.Nat
import Intel8080.Invaders.Machine
import Intel8080.Proofs.Manual.Arithmetic
import Intel8080.Proofs.Memory.Loading

/-!
# The picture in memory

The screen shows 7168 bytes of memory, a pixel for each bit. The machine counts lit pixels by
a loop over a copy of these bytes; here the count is read off memory, address by address.
-/

namespace Intel8080

private theorem foldlM_loop_eq {β : Type} {m : Type → Type} [Monad m] (f : β → UInt8 → m β)
    (bytes : ByteArray) (remaining start : Nat) (init : β)
    (whole : remaining + start = bytes.size) :
    ByteArray.foldlM.loop f bytes bytes.size (Nat.le_refl _) remaining start init =
      (bytes.data.toList.drop start).foldlM f init := by
  induction remaining generalizing start init with
  | zero =>
      have ended : bytes.size = start := by omega
      simp [ByteArray.foldlM.loop, ended, List.drop_of_length_le]
  | succ remaining ih =>
      have inside : start < bytes.size := by omega
      have rest := fun value => ih (start + 1) value (by omega)
      have next : bytes.data.toList.drop start =
          bytes[start] :: bytes.data.toList.drop (start + 1) :=
        (List.getElem_cons_drop (by simpa using inside)).symm
      rw [ByteArray.foldlM.loop, dif_pos inside, next]
      simp only [rest, List.foldlM_cons]

theorem foldl_bytes_eq {β : Type} (f : β → UInt8 → β) (init : β) (bytes : ByteArray) :
    bytes.foldl f init = bytes.data.toList.foldl f init := by
  simp only [ByteArray.foldl, ByteArray.foldlM, dif_pos (Nat.le_refl _), Nat.sub_zero]
  rw [foldlM_loop_eq _ _ _ _ _ (Nat.add_zero _)]
  simp

namespace Manual

theorem ones_le (byte : UInt8) : ones byte ≤ 8 := by
  rw [ones_eq_bitCount, bitCount]
  omega

end Manual

namespace Memory

/-- The number of set bits in a run of bytes. Outside memory there are none. -/
def setBits (m : Memory) (start length : Nat) : Nat :=
  ((List.range' start length).map fun address => Manual.ones ((m.byte? address).getD 0)).sum

theorem setBits_le (m : Memory) (start length : Nat) : m.setBits start length ≤ 8 * length := by
  induction length generalizing start with
  | zero => exact Nat.le_refl _
  | succ length ih =>
      have rest := ih (start + 1)
      have byte := Manual.ones_le ((m.byte? start).getD 0)
      simp only [setBits, List.range'_succ, List.map_cons, List.sum_cons] at rest ⊢
      omega

end Memory

namespace Invaders.Machine

theorem litPixels_eq {m : Machine} (h : videoStart + videoSize ≤ m.cpu.processor.memory.capacity) :
    m.litPixels = m.cpu.processor.memory.setBits videoStart videoSize := by
  rw [litPixels, video, foldl_bytes_eq, Memory.toList_extract h, Memory.setBits,
    List.sum_eq_foldl, List.foldl_map, List.foldl_map]
  simp only [Manual.ones_eq_bitCount]

end Invaders.Machine

end Intel8080
