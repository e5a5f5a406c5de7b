import Ieee1905.Codec.Announced
import Ieee1905.Codec.Sentinel
import Ieee1905.Model.Cmdu

/-!
# The wire format

The CMDU grammar, independent of the code that reads and writes it: a TLV is a type byte,
a big-endian length and that many bytes; a message is eight header bytes and a sequence
of TLVs whose last one, and no other, is END_OF_MESSAGE. Both are prefix codes, built
from the library's combinators. `Message.cmdu` is the object that a message denotes.
-/

namespace Ieee1905

open Codec

/-- One type byte, the length as a big-endian word, the value. -/
def Tlv.encode (tlv : Tlv) : List UInt8 := tlv.type :: be16 tlv.getLength ++ tlv.value

theorem Tlv.length_encode (tlv : Tlv) : tlv.encode.length = 3 + tlv.getLength.toNat := by
  rw [tlv.toNat_getLength]
  simp [Tlv.encode, be16]
  omega

/-- TLVs back to back. -/
def encodeTlvs (tlvs : List Tlv) : List UInt8 := tlvs.flatMap Tlv.encode

namespace Wire

/-- A TLV as a type and a value that fits. -/
def parts (tlv : Tlv) : Announced TlvType := ⟨(tlv.type, tlv.value), tlv.fits⟩

theorem parts_injective : Function.Injective parts := by
  intro a b same
  obtain ⟨type, value⟩ := Prod.mk.inj (congrArg Subtype.val same)
  cases a
  cases b
  rw [Tlv.mk.injEq]
  exact ⟨type, value⟩

def tlvCode : PrefixCode Tlv UInt8 := byteCode.announced.comap parts parts_injective

theorem tlvCode_enc (tlv : Tlv) : tlvCode.enc tlv = tlv.encode := rfl

/-- The terminator test of the source is the library's. -/
theorem lacksEndOfMessage_eq (tlvs : List Tlv) : lacksEndOfMessage tlvs = !endsInStop Tlv.isEnd tlvs := by
  unfold lacksEndOfMessage endsInStop
  cases tlvs.getLast? <;> rfl

/-- No terminator among the TLVs. -/
theorem clean_iff {tlvs : List Tlv} : Clean Tlv.isEnd tlvs ↔ ∀ t ∈ tlvs, t.getType ≠ TlvTypes.endOfMessage := by
  unfold Clean
  simp only [Tlv.isEnd_eq_false_iff]

/-- The bytes of a CMDU header. -/
abbrev Header := {h : List UInt8 // h.length = Cmdu.cmduHeaderSize}

/-- A header and TLVs that end in their only terminator. -/
abbrev Message := Header × Terminated Tlv.isEnd

def messageCode : PrefixCode Message UInt8 :=
  (PrefixCode.fixed UInt8 Cmdu.cmduHeaderSize).pair (tlvCode.terminated Tlv.isEnd)

theorem messageCode_enc (m : Message) : messageCode.enc m = m.1.1 ++ encodeTlvs m.2.toList := rfl

/-- The CMDU that a message stands for; version and reserved byte are not part of it. -/
def Message.cmdu (m : Message) : Cmdu where
  type := ofBytes (m.1.1.getD 2 0) (m.1.1.getD 3 0)
  id := ofBytes (m.1.1.getD 4 0) (m.1.1.getD 5 0)
  fragmentId := m.1.1.getD 6 0
  flags := m.1.1.getD 7 0
  tlvs := m.2.toList

/-- The header bytes that carry a CMDU's fields. -/
def headerBytes (c : Cmdu) : List UInt8 :=
  [Cmdu.messageVersion, 0] ++ be16 c.type ++ be16 c.id ++ [c.fragmentId, c.flags]

@[simp] theorem length_headerBytes (c : Cmdu) : (headerBytes c).length = 8 := rfl

def packedHeader (c : Cmdu) : Header := ⟨headerBytes c, length_headerBytes c⟩

/-- A packed header reads back as the fields it carries. -/
theorem Message.cmdu_packedHeader (c : Cmdu) (t : Terminated Tlv.isEnd) :
    Message.cmdu (packedHeader c, t) = { c with tlvs := t.toList } := by
  have type := ofBytes_hiByte_loByte c.type
  have id := ofBytes_hiByte_loByte c.id
  simp only [Message.cmdu, packedHeader, headerBytes, be16, List.cons_append, List.nil_append, List.getD_cons_succ,
    List.getD_cons_zero, type, id]

/-- The header of a message, packed again: only version and reserved byte are reset. -/
theorem headerBytes_cmdu (m : Message) : headerBytes m.cmdu = [0, 0] ++ m.1.1.drop 2 := by
  obtain ⟨⟨h, size⟩, t⟩ := m
  obtain ⟨h0, h1, h2, h3, h4, h5, h6, h7, rfl⟩ :
      ∃ h0 h1 h2 h3 h4 h5 h6 h7, h = [h0, h1, h2, h3, h4, h5, h6, h7] := by
    match h, size with
    | [h0, h1, h2, h3, h4, h5, h6, h7], _ => exact ⟨h0, h1, h2, h3, h4, h5, h6, h7, rfl⟩
  simp [headerBytes, Message.cmdu, be16, Cmdu.messageVersion]

/-! ## Sizes -/

/-- Eight header bytes, and a type, a length and a value for each TLV. -/
def wireSize (c : Cmdu) : ℕ := 8 + (c.tlvs.map fun tlv => 3 + tlv.getLength.toNat).sum

theorem length_encodeTlvs (tlvs : List Tlv) :
    (encodeTlvs tlvs).length = (tlvs.map fun tlv => 3 + tlv.getLength.toNat).sum := by
  rw [encodeTlvs, List.length_flatMap]
  congr 1
  apply List.map_congr_left
  intro tlv _
  exact Tlv.length_encode tlv

theorem length_messageCode (m : Message) : (messageCode.enc m).length = wireSize m.cmdu := by
  rw [messageCode_enc, List.length_append, m.1.2, length_encodeTlvs]
  rfl

end Wire

end Ieee1905
