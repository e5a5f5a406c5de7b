import Ieee1905.Model.Serializer
import Ieee1905.Wire.Format

/-!
# What `Pack` writes

The size pass counts exactly the bytes that the write pass emits (`length_packBytes`), so
the cursor writes fill the buffer from end to end: `Pack` is the concatenation of the
header and the encodings of the TLVs, closed with an empty terminator where the last TLV
is not one (`pack_eq`).
-/

namespace Ieee1905.Wire

open Codec Machine MessageSerializer

/-- A list of TLVs as it goes out: with a terminator at the end. -/
def closeTlvs (tlvs : List Tlv) : List Tlv := close Tlv.isEnd emptyEnd tlvs

/-- The bytes of a packet. -/
def packBytes (c : Cmdu) : List UInt8 := headerBytes c ++ encodeTlvs (closeTlvs c.tlvs)

theorem encodeTlvs_append (xs ys : List Tlv) : encodeTlvs (xs ++ ys) = encodeTlvs xs ++ encodeTlvs ys :=
  List.flatMap_append

/-- The terminator that the source appends is the empty one. -/
theorem encodeTlvs_closeTlvs (c : Cmdu) :
    encodeTlvs (closeTlvs c.tlvs) = encodeTlvs c.tlvs ++ if appendEndOfMessage c then [0, 0, 0] else [] := by
  have test : appendEndOfMessage c = !endsInStop Tlv.isEnd c.tlvs := lacksEndOfMessage_eq c.tlvs
  rw [test, closeTlvs, close]
  cases endsInStop Tlv.isEnd c.tlvs with
  | false => exact encodeTlvs_append _ _
  | true => simp

/-! ## The write pass -/

theorem emits_writeTlv (tlv : Tlv) : Emits (writeTlv tlv) tlv.encode :=
  (Emits.put _ tlv.type).seq ((Emits.putBe16 _ tlv.getLength).seq (Emits.putAll _ tlv.value))

theorem emits_writeCmdu (c : Cmdu) : Emits (writeCmdu c) (packBytes c) := by
  have terminator : Emits (do writeUint8 TlvTypes.endOfMessage; writeUint16 0) [0, 0, 0] :=
    (Emits.put _ _).seq (Emits.putBe16 _ 0)
  have tlvs := (Emits.forM emits_writeTlv c.tlvs).seq (terminator.when (c := appendEndOfMessage c))
  have flags := (Emits.put Fault.outOfBounds c.flags).seq tlvs
  have fragment := (Emits.put Fault.outOfBounds c.fragmentId).seq flags
  have id := (Emits.putBe16 Fault.outOfBounds c.id).seq fragment
  have type := (Emits.putBe16 Fault.outOfBounds c.type).seq id
  have reserved := (Emits.put Fault.outOfBounds 0).seq type
  have version := (Emits.put Fault.outOfBounds Cmdu.messageVersion).seq reserved
  rw [packBytes, encodeTlvs_closeTlvs]
  exact version

/-! ## The size pass -/

theorem foldl_getPacketSize (tlvs : List Tlv) (size : ℕ) :
    tlvs.foldl (fun size tlv => size + tlv.getPacketSize) size = size + (encodeTlvs tlvs).length := by
  induction tlvs generalizing size with
  | nil => rfl
  | cons tlv tlvs ih =>
    have first : tlv.getPacketSize = tlv.encode.length := by
      rw [tlv.length_encode, tlv.toNat_getLength]
      rfl
    rw [List.foldl_cons, ih, first]
    simp only [encodeTlvs, List.flatMap_cons, List.length_append]
    omega

theorem length_packBytes (c : Cmdu) : (packBytes c).length = totalSize c := by
  have sizes := foldl_getPacketSize c.getTlvs Cmdu.cmduHeaderSize
  rw [packBytes, encodeTlvs_closeTlvs, totalSize, sizes]
  simp only [Cmdu.cmduHeaderSize, Tlv.tlvHeaderSize, Cmdu.getTlvs, List.length_append, length_headerBytes]
  cases appendEndOfMessage c with
  | false => rfl
  | true => exact (Nat.add_assoc ..).symm

/-! ## The packet -/

/-- No write leaves the buffer and the cursor ends at its end, whatever was there before. -/
theorem runOver_writeCmdu (c : Cmdu) (old : UInt8) :
    runOver old (totalSize c) (writeCmdu c) = .ok ⟨packBytes c, totalSize c⟩ := by
  rw [← length_packBytes]
  exact (emits_writeCmdu c).fill old

/-- **`Pack` is concatenation.** -/
theorem pack_eq (c : Cmdu) : pack c = .ok (packBytes c) := by
  rw [pack, runOver_writeCmdu]
  rfl

theorem appendEndOfMessage_iff (c : Cmdu) :
    appendEndOfMessage c = true ↔
      c.getTlvs = [] ∨ ∃ last ∈ c.getTlvs.getLast?, last.getType ≠ TlvTypes.endOfMessage := by
  unfold appendEndOfMessage lacksEndOfMessage
  cases found : c.getTlvs.getLast? with
  | none => simp [List.getLast?_eq_none_iff.mp found]
  | some last =>
    have some : c.getTlvs ≠ [] := by
      intro none
      rw [none] at found
      cases found
    simp [some]

/-- **The writer fills the buffer that was sized for it**: no write falls outside, no byte of
the buffer keeps what it held, every length is the number of value bytes behind it, and the
bytes are the header, the TLVs and, where the list does not end in one, an empty terminator. -/
theorem pack_fills (c : Cmdu) :
    ∃ bytes, (∀ old, runOver old (totalSize c) (writeCmdu c) = .ok ⟨bytes, totalSize c⟩) ∧
      pack c = .ok bytes ∧ bytes.length = totalSize c ∧
      (∀ tlv ∈ c.getTlvs, tlv.encode = tlv.getType :: be16 tlv.getLength ++ tlv.getValue ∧
        tlv.getLength.toNat = tlv.getValue.length) ∧
      bytes = [0, 0, hiByte c.getType, loByte c.getType, hiByte c.getId, loByte c.getId, c.getFragmentId, c.getFlags] ++
        encodeTlvs c.getTlvs ++
        if c.getTlvs = [] ∨ ∃ last ∈ c.getTlvs.getLast?, last.getType ≠ TlvTypes.endOfMessage then [0, 0, 0] else [] := by
  refine ⟨packBytes c, runOver_writeCmdu c, pack_eq c, length_packBytes c, ?_, ?_⟩
  · intro tlv _
    exact ⟨rfl, tlv.toNat_getLength⟩
  · have tail := appendEndOfMessage_iff c
    simp only [← tail]
    rw [packBytes, encodeTlvs_closeTlvs, ← List.append_assoc]
    rfl

end Ieee1905.Wire
