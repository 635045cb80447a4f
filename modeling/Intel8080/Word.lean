/-!
# Bytes and words

The processor moves bytes and keeps addresses as words. A word is a high byte
over a low byte; the functions below put it together and take it apart, and each
is stated on the numbers so that later arithmetic stays in the naturals.
-/

namespace Intel8080

def joinBytes (high low : UInt8) : UInt16 :=
  UInt16.ofNat (256 * high.toNat + low.toNat)

def highByte (word : UInt16) : UInt8 :=
  UInt8.ofNat (word.toNat / 256)

def lowByte (word : UInt16) : UInt8 :=
  UInt8.ofNat word.toNat

/-- How many of the eight bits of a byte are set. -/
def bitCount (byte : UInt8) : Nat :=
  let n := byte.toNat
  n % 2 + n / 2 % 2 + n / 4 % 2 + n / 8 % 2 + n / 16 % 2 + n / 32 % 2 + n / 64 % 2 + n / 128 % 2

theorem toNat_joinBytes (high low : UInt8) :
    (joinBytes high low).toNat = 256 * high.toNat + low.toNat := by
  have hh := high.toNat_lt
  have hl := low.toNat_lt
  simp only [joinBytes, UInt16.toNat_ofNat']
  omega

theorem toNat_highByte (word : UInt16) : (highByte word).toNat = word.toNat / 256 := by
  have hw := word.toNat_lt
  simp only [highByte, UInt8.toNat_ofNat']
  omega

theorem toNat_lowByte (word : UInt16) : (lowByte word).toNat = word.toNat % 256 := by
  simp only [lowByte, UInt8.toNat_ofNat']

@[simp] theorem highByte_joinBytes (high low : UInt8) : highByte (joinBytes high low) = high := by
  have hl := low.toNat_lt
  apply UInt8.toNat_inj.mp
  rw [toNat_highByte, toNat_joinBytes]
  omega

@[simp] theorem lowByte_joinBytes (high low : UInt8) : lowByte (joinBytes high low) = low := by
  have hl := low.toNat_lt
  apply UInt8.toNat_inj.mp
  rw [toNat_lowByte, toNat_joinBytes]
  omega

@[simp] theorem joinBytes_highByte_lowByte (word : UInt16) :
    joinBytes (highByte word) (lowByte word) = word := by
  apply UInt16.toNat_inj.mp
  rw [toNat_joinBytes, toNat_highByte, toNat_lowByte]
  omega

theorem add_ofNat_zero (word : UInt16) : word + UInt16.ofNat 0 = word :=
  UInt16.add_zero word

end Intel8080
