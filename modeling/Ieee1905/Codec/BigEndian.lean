import Ieee1905.Codec.PrefixCode
import Mathlib.Data.Nat.Bitwise

/-!
# Sixteen-bit words in network byte order

The shifts and masks that take a word apart and put it together, with their arithmetic
meaning: splitting and joining are inverse in both directions, so a big-endian word is a
prefix code of two bytes.
-/

namespace Ieee1905.Codec

/-- The high byte, `(value >> 8) & 0xFF`. -/
def hiByte (value : UInt16) : UInt8 := ((value >>> 8) &&& 0xFF).toUInt8

/-- The low byte, `value & 0xFF`. -/
def loByte (value : UInt16) : UInt8 := (value &&& 0xFF).toUInt8

/-- The word of two bytes, `(hi << 8) | lo`. -/
def ofBytes (hi lo : UInt8) : UInt16 := (hi.toUInt16 <<< 8) ||| lo.toUInt16

theorem toNat_hiByte (value : UInt16) : (hiByte value).toNat = value.toNat / 256 := by
  have bound := value.toNat_lt
  simp only [hiByte, UInt16.toNat_toUInt8, UInt16.toNat_and, UInt16.toNat_shiftRight,
    UInt16.reduceToNat, Nat.reduceMod, Nat.shiftRight_eq_div_pow]
  rw [Nat.and_two_pow_sub_one_eq_mod _ 8]
  omega

theorem toNat_loByte (value : UInt16) : (loByte value).toNat = value.toNat % 256 := by
  simp only [loByte, UInt16.toNat_toUInt8, UInt16.toNat_and, UInt16.reduceToNat]
  rw [Nat.and_two_pow_sub_one_eq_mod _ 8]
  omega

theorem toNat_ofBytes (hi lo : UInt8) : (ofBytes hi lo).toNat = hi.toNat * 256 + lo.toNat := by
  have hiBound := hi.toNat_lt
  have loBound := lo.toNat_lt
  have shifted : hi.toNat <<< 8 = hi.toNat * 256 := Nat.shiftLeft_eq _ _
  simp only [ofBytes, UInt16.toNat_or, UInt16.toNat_shiftLeft, UInt8.toNat_toUInt16,
    UInt16.reduceToNat, Nat.reduceMod]
  rw [Nat.mod_eq_of_lt (by omega), ← Nat.shiftLeft_add_eq_or_of_lt (by omega), shifted]

theorem ofBytes_hiByte_loByte (value : UInt16) : ofBytes (hiByte value) (loByte value) = value := by
  apply UInt16.toNat_inj.mp
  rw [toNat_ofBytes, toNat_hiByte, toNat_loByte]
  omega

@[simp] theorem hiByte_ofBytes (hi lo : UInt8) : hiByte (ofBytes hi lo) = hi := by
  have bound := lo.toNat_lt
  apply UInt8.toNat_inj.mp
  rw [toNat_hiByte, toNat_ofBytes]
  omega

@[simp] theorem loByte_ofBytes (hi lo : UInt8) : loByte (ofBytes hi lo) = lo := by
  have bound := lo.toNat_lt
  apply UInt8.toNat_inj.mp
  rw [toNat_loByte, toNat_ofBytes]
  omega

/-- The two bytes of a word, high byte first. -/
def be16 (value : UInt16) : List UInt8 := [hiByte value, loByte value]

@[simp] theorem length_be16 (value : UInt16) : (be16 value).length = 2 := rfl

/-- Big-endian words as a code: two bytes determine the word. -/
def be16Code : PrefixCode UInt16 UInt8 where
  enc := be16
  split {a b p q} same := by
    simp only [be16, List.cons_append, List.nil_append, List.cons.injEq] at same
    obtain ⟨hi, lo, rest⟩ := same
    refine ⟨?_, rest⟩
    rw [← ofBytes_hiByte_loByte a, ← ofBytes_hiByte_loByte b, hi, lo]

/-- A single byte, as a code. -/
def byteCode : PrefixCode UInt8 UInt8 where
  enc b := [b]
  split {a b p q} same := by
    simpa only [List.cons_append, List.nil_append, List.cons.injEq] using same

end Ieee1905.Codec
