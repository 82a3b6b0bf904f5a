import Mathlib.Tactic

/-!
# Big-endian 16-bit words

The two-byte encoding of an unsigned 16-bit word, most significant byte
first, as bit operations on machine words, and its reading as a number.
-/

namespace TurnBasedGame
namespace Kernel

section Word

/-- The word whose most significant byte comes first. -/
def bigEndianUint16 (hi lo : UInt8) : UInt16 :=
  lo.toUInt16 ||| (hi.toUInt16 <<< 8)

/-- Most significant byte of a word. -/
def highByte (v : UInt16) : UInt8 :=
  (v >>> 8).toUInt8

/-- Least significant byte of a word. -/
def lowByte (v : UInt16) : UInt8 :=
  v.toUInt8

theorem highByte_toNat
    (v : UInt16) :
    (highByte v).toNat = v.toNat / 256 := by
  have h := v.toNat_lt
  simp [highByte, Nat.shiftRight_eq_div_pow]
  omega

theorem lowByte_toNat
    (v : UInt16) :
    (lowByte v).toNat = v.toNat % 256 := by
  simp [lowByte]

/-- A word is its first byte times 256 plus its second. -/
theorem bigEndianUint16_toNat
    (hi lo : UInt8) :
    (bigEndianUint16 hi lo).toNat = 256 * hi.toNat + lo.toNat := by
  have hhi := hi.toNat_lt
  have hlo := lo.toNat_lt
  have hshift : hi.toNat <<< 8 % 65536 = 2 ^ 8 * hi.toNat := by
    rw [Nat.shiftLeft_eq]
    omega
  simp only [bigEndianUint16, UInt16.toNat_or, UInt8.toNat_toUInt16,
    UInt16.toNat_shiftLeft]
  simp only [UInt16.toNat_ofNat, Nat.reducePow, Nat.reduceMod]
  rw [hshift, Nat.or_comm, ← Nat.two_pow_add_eq_or_of_lt (by omega)]

/-- Decoding the two bytes of a word gives the word back. -/
theorem bigEndianUint16_bytes
    (v : UInt16) :
    bigEndianUint16 (highByte v) (lowByte v) = v := by
  apply UInt16.toNat_inj.mp
  rw [bigEndianUint16_toNat, highByte_toNat, lowByte_toNat]
  omega

/-- The first byte of a decoded word is the byte it was decoded from. -/
theorem highByte_bigEndianUint16
    (hi lo : UInt8) :
    highByte (bigEndianUint16 hi lo) = hi := by
  have hlo := lo.toNat_lt
  apply UInt8.toNat_inj.mp
  rw [highByte_toNat, bigEndianUint16_toNat]
  omega

/-- The second byte of a decoded word is the byte it was decoded from. -/
theorem lowByte_bigEndianUint16
    (hi lo : UInt8) :
    lowByte (bigEndianUint16 hi lo) = lo := by
  have hlo := lo.toNat_lt
  apply UInt8.toNat_inj.mp
  rw [lowByte_toNat, bigEndianUint16_toNat]
  omega

end Word

end Kernel
end TurnBasedGame
