import Ieee1905.Codec.BigEndian

/-!
# Type, length, value

A value behind its type and its length, the length a big-endian word. Whatever code the
types have, this is a prefix code of the values that such a length can announce, and bytes
that hold a type, a length and enough behind them start with one of its words
(`exists_announced`).
-/

namespace Ieee1905.Codec

universe u

variable {κ : Type u}

/-- A count of at most sixteen bits survives the cast. -/
theorem toNat_ofNat_of_le {n : Nat} (fits : n ≤ 0xFFFF) : (UInt16.ofNat n).toNat = n := by
  apply UInt16.toNat_ofNat_of_lt'
  show n < 65536
  omega

/-- A value that a sixteen-bit length can announce. -/
def Fits (value : List UInt8) : Prop := value.length ≤ 0xFFFF

/-- A type and a value that fits. -/
abbrev Announced (κ : Type u) := {pair : κ × List UInt8 // Fits pair.2}

/-- The announcing header and the value, which has the announced length. -/
def headerAndValue (a : Announced κ) : {x : (κ × UInt16) × List UInt8 // x.2.length = x.1.2.toNat} :=
  ⟨((a.1.1, UInt16.ofNat a.1.2.length), a.1.2), (toNat_ofNat_of_le a.2).symm⟩

theorem headerAndValue_injective : Function.Injective (headerAndValue : Announced κ → _) := by
  intro a b same
  simp only [headerAndValue, Subtype.mk.injEq, Prod.mk.injEq] at same
  apply Subtype.ext
  exact Prod.ext same.1.1 same.2

namespace PrefixCode

def announced (K : PrefixCode κ UInt8) : PrefixCode (Announced κ) UInt8 :=
  (lengthPrefixed (K.pair be16Code) fun header => header.2.toNat).comap headerAndValue headerAndValue_injective

theorem announced_enc (K : PrefixCode κ UInt8) (a : Announced κ) :
    K.announced.enc a = K.enc a.1.1 ++ be16 (UInt16.ofNat a.1.2.length) ++ a.1.2 := rfl

/-- A type and a length that the bytes behind them can satisfy make a word. -/
theorem exists_announced (K : PrefixCode κ UInt8) (type : κ) {hi lo : UInt8} {rest : List UInt8}
    (enough : (ofBytes hi lo).toNat ≤ rest.length) :
    ∃ a p, K.enc type ++ hi :: lo :: rest = K.announced.enc a ++ p := by
  have bound := (ofBytes hi lo).toNat_lt
  have size : (rest.take (ofBytes hi lo).toNat).length = (ofBytes hi lo).toNat := by
    rw [List.length_take]
    omega
  have fits : Fits (rest.take (ofBytes hi lo).toNat) := by
    unfold Fits
    omega
  refine ⟨⟨(type, rest.take (ofBytes hi lo).toNat), fits⟩, rest.drop (ofBytes hi lo).toNat, ?_⟩
  rw [announced_enc, size, UInt16.ofNat_toNat]
  simp [be16]

end PrefixCode

end Ieee1905.Codec
