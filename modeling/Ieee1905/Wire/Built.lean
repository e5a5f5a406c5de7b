import Ieee1905.Wire.Adding
import Ieee1905.Wire.Truncation

/-!
# Messages that `AddTlv` builds

How long the packet of a new CMDU is after any sequence of `AddTlv` calls, and what a peer makes
of it while there is one terminator at most: the payload in the order of the calls and behind it
the terminator, the caller's or an empty one.
-/

namespace Ieee1905.Wire

open Codec MessageParser MessageSerializer

/-- The bytes that a message of the TLVs `ts` takes on the wire. -/
def builtSize (ts : List Tlv) : ℕ :=
  8 + (ts.map fun t => 3 + t.getValue.length).sum + if ts.any Tlv.isEnd then 0 else 3

theorem length_encodeTlvs_values (ts : List Tlv) :
    (encodeTlvs ts).length = (ts.map fun t => 3 + t.getValue.length).sum := by
  rw [length_encodeTlvs]
  congr 1
  apply List.map_congr_left
  intro t _
  rw [t.toNat_getLength]
  rfl

section Built

variable (type : MessageType) (id : MessageId) (flags : MessageFlags) (fragmentId : FragmentId)

/-- The packet is closed with an empty terminator where none was added. -/
theorem packBytes_built (ts : List Tlv) :
    packBytes ((Cmdu.new type id flags fragmentId).addTlvs ts) =
      headerBytes ((Cmdu.new type id flags fragmentId).addTlvs ts) ++ encodeTlvs (stopLast Tlv.isEnd ts) ++
        if ts.any Tlv.isEnd then [] else [0, 0, 0] := by
  have closed : encodeTlvs (closeTlvs (stopLast Tlv.isEnd ts)) =
      encodeTlvs (stopLast Tlv.isEnd ts) ++ if ts.any Tlv.isEnd then [] else [0, 0, 0] := by
    rw [closeTlvs, close_stopLast, encodeTlvs_append]
    cases ts.any Tlv.isEnd <;> rfl
  rw [addTlvs_new, packBytes, closed, List.append_assoc]

/-- In whatever order they end up, the TLVs take the same space, and one more terminator where
none was added. -/
theorem length_packBytes_built (ts : List Tlv) :
    (packBytes ((Cmdu.new type id flags fragmentId).addTlvs ts)).length = builtSize ts := by
  have perm : (encodeTlvs (stopLast Tlv.isEnd ts)).length = (encodeTlvs ts).length :=
    ((perm_stopLast ts).flatMap_right Tlv.encode).length_eq
  rw [packBytes_built, List.length_append, List.length_append, length_headerBytes, perm, length_encodeTlvs_values, builtSize]
  cases ts.any Tlv.isEnd <;> rfl

/-- What a peer makes of a packet with one terminator at most, whatever follows it. -/
theorem parse_built {ts : List Tlv} (few : ts.countP Tlv.isEnd ≤ 1) (padding : List UInt8) :
    parse (packBytes ((Cmdu.new type id flags fragmentId).addTlvs ts) ++ padding) =
      .ok { Cmdu.new type id flags fragmentId with
        tlvs := payload Tlv.isEnd ts ++ [(ts.find? Tlv.isEnd).getD emptyEnd] } := by
  have tlvs : cut Tlv.isEnd (closeTlvs (insertAll Tlv.isEnd [] ts)) = payload Tlv.isEnd ts ++ [(ts.find? Tlv.isEnd).getD emptyEnd] :=
    read_of_count isEnd_emptyEnd few
  rw [parse_packBytes_append, addTlvs_eq, ← tlvs]
  rfl

/-- The peer consumes the whole packet. -/
theorem wireSize_built {ts : List Tlv} (few : ts.countP Tlv.isEnd ≤ 1) :
    wireSize { Cmdu.new type id flags fragmentId with
      tlvs := payload Tlv.isEnd ts ++ [(ts.find? Tlv.isEnd).getD emptyEnd] } = builtSize ts := by
  have lastOnly : TerminatorLastOnly ((Cmdu.new type id flags fragmentId).addTlvs ts) := by
    rw [addTlvs_eq]
    exact (stop_last_iff ts).mpr few
  obtain ⟨t, -, word⟩ := packBytes_word lastOnly
  have size := word.length
  have message := parse_message (word.append [])
  rw [parse_built type id flags fragmentId few] at message
  rw [Except.ok.inj message, ← length_packBytes_built type id flags fragmentId, size, length_messageCode]
  rfl

/-- Every type but the terminator's is found at the peer where it was added first. -/
theorem findTlv_built (ts : List Tlv) {t : TlvType} (other : t ≠ TlvTypes.endOfMessage) {e : Tlv} (isEnd : e.isEnd = true) :
    ({ Cmdu.new type id flags fragmentId with tlvs := payload Tlv.isEnd ts ++ [e] } : Cmdu).findTlv t =
      ts.find? fun tlv => tlv.getType == t := by
  have apart := Tlv.getType_of_isEnd other
  show (payload Tlv.isEnd ts ++ [e]).find? _ = _
  rw [List.find?_append, find?_payload apart, List.find?_cons_of_neg (by simp [apart e isEnd]), List.find?_nil, Option.or_none]

end Built

end Ieee1905.Wire
