import Ieee1905.Wire.RoundTrip
import Ieee1905.Wsc.RoundTrip

/-!
# WSC messages inside CMDUs

The two formats composed: WSC messages become TLVs, travel in a CMDU among other TLVs and
are rebuilt from what the peer parses. Without an END_OF_MESSAGE among them the TLVs come
back as they were added (`parse_clean_append`), and each WSC TLV still carries its message.
-/

namespace Ieee1905.Wsc

open Codec Wire WscMessage MessageSerializer MessageParser

/-- What a caller puts into a CMDU. -/
inductive Item where
  | wsc (m : WscMessage)
  | other (tlv : Tlv)

/-- The TLV that an item is added as. -/
inductive Item.AddedAs : Item → Tlv → Prop where
  | wsc {m : WscMessage} {tlv : Tlv} (reached : Reachable m) (accepted : toTlv.run m = .ok tlv m) :
      AddedAs (.wsc m) tlv
  | other {tlv : Tlv} (notWsc : tlv.getType ≠ TlvTypes.wsc) (notEnd : tlv.getType ≠ TlvTypes.endOfMessage) :
      AddedAs (.other tlv) tlv

def Item.message? : Item → Option WscMessage
  | wsc m => some m
  | other _ => none

def Item.tlv? : Item → Option Tlv
  | wsc _ => none
  | other tlv => some tlv

/-- The value of `tlv` is raw data that rebuilds a message with the attributes of `m`. -/
def Carries (m : WscMessage) (tlv : Tlv) : Prop :=
  ∃ rebuilt, ofRaw tlv.getValue = .ok rebuilt ∧
    ∀ type, rebuilt.getAttributeValue type = m.getAttributeValue type

def isWsc (tlv : Tlv) : Bool := tlv.getType == TlvTypes.wsc

/-- Neither WSC nor a terminator. -/
def isOther (tlv : Tlv) : Bool := !isWsc tlv && !tlv.isEnd

theorem head?_rel {ms : List WscMessage} {tlvs : List Tlv} (carried : List.Forall₂ Carries ms tlvs) :
    Option.Rel Carries ms.head? tlvs.head? := by
  cases carried with
  | nil => exact .none
  | cons one _ => exact .some one

/-! ## Item by item -/

/-- What an item looks like among the TLVs. -/
theorem Item.AddedAs.cases {item : Item} {tlv : Tlv} (added : item.AddedAs tlv) :
    (∃ m, item = .wsc m ∧ Carries m tlv ∧ isWsc tlv = true ∧ tlv.isEnd = false) ∨
      item = .other tlv ∧ isWsc tlv = false ∧ tlv.isEnd = false := by
  cases added with
  | @wsc m tlv reached accepted =>
    obtain ⟨fits, rfl, -⟩ := toTlv_ok_iff.mp accepted
    have carries : Carries m ⟨TlvTypes.wsc, packedBytes m, fits⟩ :=
      ⟨m, ofRaw_packedBytes reached.fits, fun _ => rfl⟩
    exact .inl ⟨m, rfl, carries, rfl, rfl⟩
  | other notWsc notEnd =>
    exact .inr ⟨rfl, beq_eq_false_iff_ne.mpr notWsc, Tlv.isEnd_eq_false_iff.mpr notEnd⟩

section Items

variable {items : List Item} {tlvs : List Tlv} (added : List.Forall₂ Item.AddedAs items tlvs)

include added

theorem clean_of_added : Clean Tlv.isEnd tlvs := by
  induction added with
  | nil => exact fun t member => absurd member List.not_mem_nil
  | @cons item tlv items tlvs one _ ih =>
    intro t member
    rcases List.mem_cons.mp member with rfl | later
    · rcases one.cases with ⟨_, -, -, -, notEnd⟩ | ⟨-, -, notEnd⟩
      · exact notEnd
      · exact notEnd
    · exact ih t later

/-- The WSC TLVs are those of the messages, in order. -/
theorem filter_isWsc_added : List.Forall₂ Carries (items.filterMap Item.message?) (tlvs.filter isWsc) := by
  induction added with
  | nil => exact .nil
  | @cons item tlv items tlvs one _ ih =>
    rcases one.cases with ⟨m, rfl, carries, hit, -⟩ | ⟨rfl, miss, -⟩
    · rw [List.filter_cons, if_pos hit]
      exact .cons carries ih
    · rw [List.filter_cons, miss]
      exact ih

/-- The other TLVs are the other items, unchanged and in order. -/
theorem filter_isOther_added : tlvs.filter isOther = items.filterMap Item.tlv? := by
  induction added with
  | nil => rfl
  | @cons item tlv items tlvs one _ ih =>
    rcases one.cases with ⟨m, rfl, -, hit, -⟩ | ⟨rfl, miss, notEnd⟩
    · have skipped : isOther tlv = false := by simp [isOther, hit]
      rw [List.filter_cons, skipped]
      exact ih
    · have taken : isOther tlv = true := by simp [isOther, miss, notEnd]
      rw [List.filter_cons, if_pos taken, ih]
      rfl

end Items

/-! ## Through the stack -/

/-- TLVs added to a new CMDU come back in front of an empty terminator, whatever follows
the packet. -/
theorem parse_clean_append {tlvs : List Tlv} (clean : Clean Tlv.isEnd tlvs) (type : MessageType) (id : MessageId)
    (flags : MessageFlags) (fragmentId : FragmentId) (padding : List UInt8) :
    parse (packBytes ((Cmdu.new type id flags fragmentId).addTlvs tlvs) ++ padding) =
      .ok { Cmdu.new type id flags fragmentId with tlvs := tlvs ++ [emptyEnd] } := by
  rw [parse_packBytes_append, addTlvs_eq]
  congr 2
  exact read_clean isEnd_emptyEnd clean

/-- **WSC payloads survive the whole stack.** -/
theorem wsc_through_stack {items : List Item} {tlvs : List Tlv} (added : List.Forall₂ Item.AddedAs items tlvs)
    (type : MessageType) (id : MessageId) (flags : MessageFlags) (fragmentId : FragmentId) (padding : List UInt8) :
    ∃ bytes d, pack ((Cmdu.new type id flags fragmentId).addTlvs tlvs) = .ok bytes ∧
      parse (bytes ++ padding) = .ok d ∧
      List.Forall₂ Carries (items.filterMap Item.message?) (d.getTlvs.filter isWsc) ∧
      Option.Rel Carries (items.filterMap Item.message?).head? (d.findTlv TlvTypes.wsc) ∧
      d.getTlvs.filter isOther = items.filterMap Item.tlv? := by
  have clean := clean_of_added added
  have wsc := filter_isWsc_added added
  have terminatorNotWsc : (tlvs ++ [emptyEnd]).filter isWsc = tlvs.filter isWsc := by
    simp [List.filter_append, isWsc, emptyEnd, Tlv.getType, TlvTypes.endOfMessage, TlvTypes.wsc]
  have terminatorNotOther : (tlvs ++ [emptyEnd]).filter isOther = tlvs.filter isOther := by
    simp [List.filter_append, isOther]
  refine ⟨_, _, pack_eq _, parse_clean_append clean type id flags fragmentId padding, ?_, ?_, ?_⟩
  · show List.Forall₂ Carries _ ((tlvs ++ [emptyEnd]).filter isWsc)
    rw [terminatorNotWsc]
    exact wsc
  · show Option.Rel Carries _ ((tlvs ++ [emptyEnd]).find? isWsc)
    rw [← List.head?_filter, terminatorNotWsc]
    exact head?_rel wsc
  · show (tlvs ++ [emptyEnd]).filter isOther = _
    rw [terminatorNotOther]
    exact filter_isOther_added added

/-- An SSID behind a device TLV, in a packet with one byte of padding: the receiver reads it. -/
theorem wsc_through_stack_ssid :
    ∃ bytes d tlv rebuilt, pack ((Cmdu.new 9 1).addTlvs
        [⟨TlvTypes.deviceInformationType, [0x11], by decide⟩, ⟨TlvTypes.wsc, [0x10, 0x45, 0, 1, 0x68], by decide⟩]) = .ok bytes ∧
      parse (bytes ++ [0]) = .ok d ∧ d.findTlv TlvTypes.wsc = some tlv ∧ ofRaw tlv.getValue = .ok rebuilt ∧
      rebuilt.getAttributeValue WscAttributes.wscSsid = [0x68] ∧
      d.getTlvs.filter isOther = [⟨TlvTypes.deviceInformationType, [0x11], by decide⟩] := by
  have device : Item.AddedAs (.other ⟨TlvTypes.deviceInformationType, [0x11], by decide⟩) _ :=
    .other (by decide) (by decide)
  have ssid : Item.AddedAs (.wsc (WscMessage.empty.step (WscAttributes.wscSsid, [0x68])))
      ⟨TlvTypes.wsc, [0x10, 0x45, 0, 1, 0x68], by decide⟩ := .wsc (.called .empty _) rfl
  obtain ⟨bytes, d, packed, parsed, -, first, others⟩ :=
    wsc_through_stack (.cons device (.cons ssid .nil)) 9 1 CmduFlags.lastFragment 0 [0]
  generalize found : d.findTlv TlvTypes.wsc = slot at first
  obtain ⟨rebuilt, read, values⟩ := first
  refine ⟨bytes, d, _, rebuilt, packed, parsed, found, read, ?_, others⟩
  rw [values]
  rfl

end Ieee1905.Wsc
