import Ieee1905.Codec.MapWeight
import Ieee1905.Wsc.Overlay

/-!
# What a peer can ever tell

Attributes can be overwritten but not removed. So a message that does not fit a TLV can be made
to fit while the types alone leave room, and an attribute is lost to the peer for good once
they do not leave room for its value (`toTlv_rescue`). Two messages that differ only in such
attributes are never told apart, whatever is added to both (`wsc_contexts`).
-/

namespace Ieee1905.Wsc

open Codec Std WscMessage

/-- Four bytes for each type, and the value under one of them. -/
def bareSize (m : WscMessage) (type : UInt16) : ℕ := bare 4 List.length m.attributes type

/-- `ToTlv` gives the same TLV, or the same exception. -/
def SameTlv (m m' : WscMessage) : Prop :=
  (∃ tlv, toTlv.run m = .ok tlv m ∧ toTlv.run m' = .ok tlv m') ∨
    ∃ e, toTlv.run m = .error e m ∧ toTlv.run m' = .error e m'

theorem SameTlv.symm {m m' : WscMessage} (same : SameTlv m m') : SameTlv m' m := by
  rcases same with ⟨tlv, made, made'⟩ | ⟨e, throws, throws'⟩
  · exact .inl ⟨tlv, made', made⟩
  · exact .inr ⟨e, throws', throws⟩

/-! ## One message -/

theorem attributesSize_eq_weight (m : WscMessage) : attributesSize m = weight 4 List.length m.attributes := rfl

theorem toTlv_small {m : WscMessage} (small : attributesSize m ≤ 65535) :
    ∃ fits : Fits (packedBytes m), toTlv.run m = .ok ⟨TlvTypes.wsc, packedBytes m, fits⟩ m := by
  have fits : Fits (packedBytes m) := by
    rw [Fits, length_packedBytes_sum]
    exact small
  exact ⟨fits, toTlv_ok fits⟩

/-- Every message that is too long gets the same exception. -/
theorem toTlv_large {m : WscMessage} (large : 65535 < attributesSize m) :
    toTlv.run m = .error (.lengthError "TLV value length exceeds maximum 16-bit limit (65535 bytes).") m := by
  have long : (packedBytes m).length > 0xFFFF := by
    rw [length_packedBytes_sum]
    exact large
  simp only [toTlv, EStateM.run_bind, EStateM.run_get, packAttributes_eq, run_ofExcept_ok, Tlv.new, dif_pos long,
    run_ofExcept_error]

theorem toTlv_ok_iff_small {m : WscMessage} : (∃ tlv m', toTlv.run m = .ok tlv m') ↔ attributesSize m ≤ 65535 := by
  constructor
  · rintro ⟨tlv, m', made⟩
    by_contra large
    rw [toTlv_large (Nat.lt_of_not_le large)] at made
    cases made
  · intro small
    obtain ⟨fits, made⟩ := toTlv_small small
    exact ⟨_, _, made⟩

/-! ## Behind further calls -/

theorem bareSize_eq (m : WscMessage) (type : UInt16) :
    bareSize m type = 4 * m.attributes.size + (m.getAttributeValue type).length := by
  rw [bareSize, bare, getAttributeValue]
  cases m.attributes[type]? <;> rfl

/-- Calls that leave a type alone cannot bring the message below its bare size. -/
theorem bareSize_le {m : WscMessage} {calls : List (UInt16 × List UInt8)} {type : UInt16}
    (kept : lastWrite type (acceptedCalls calls) = none) : bareSize m type ≤ attributesSize (m.addAttributes calls) := by
  rw [attributesSize_eq_weight, addAttributes_attributes]
  exact weight_insertMany_ge m.attributes kept

/-- Empty values under all other types. -/
def erasing (m : WscMessage) (type : UInt16) : List (UInt16 × List UInt8) := blanks m.attributes type []

theorem mem_erasing {m : WscMessage} {type : UInt16} {call : UInt16 × List UInt8} (member : call ∈ erasing m type) :
    call.1 ≠ type ∧ call.2 = [] := by
  obtain ⟨p, inside, rfl⟩ := List.mem_map.mp member
  exact ⟨of_decide_eq_true (List.mem_filter.mp inside).2, rfl⟩

theorem acceptedCalls_erasing (m : WscMessage) (type : UInt16) : acceptedCalls (erasing m type) = erasing m type := by
  apply acceptedCalls_eq_self
  intro call member
  rw [(mem_erasing member).2]
  exact Nat.zero_le _

/-- They bring it down to that size. -/
theorem attributesSize_erased (m : WscMessage) (type : UInt16) :
    attributesSize (m.addAttributes (erasing m type)) ≤ bareSize m type := by
  rw [attributesSize_eq_weight, addAttributes_attributes, acceptedCalls_erasing]
  exact weight_blanked_le m.attributes type rfl

theorem lastWrite_erasing (m : WscMessage) (type : UInt16) : lastWrite type (acceptedCalls (erasing m type)) = none := by
  apply lastWrite_eq_none.mpr
  rw [acceptedCalls_erasing]
  intro call member
  exact (mem_erasing member).1

/-- No call removes an attribute. -/
theorem mem_addAttributes {m : WscMessage} {type : UInt16} (member : type ∈ m.attributes)
    (calls : List (UInt16 × List UInt8)) : type ∈ (m.addAttributes calls).attributes := by
  rw [addAttributes_attributes]
  exact ExtTreeMap.mem_insertMany_list.mpr (.inl member)

/-- **An attribute can still be sent**, by overwriting others, if and only if the types and its
own value leave room: calls on other types can make `ToTlv` succeed exactly then, since none of
them removes a type. -/
theorem toTlv_rescue (m : WscMessage) (type : UInt16) :
    ((∃ calls, (∀ call ∈ calls, call.1 ≠ type) ∧ ∃ tlv m', toTlv.run (m.addAttributes calls) = .ok tlv m') ↔
      4 * m.attributes.size + (m.getAttributeValue type).length ≤ 65535) ∧
    ∀ calls, ∀ present ∈ m.attributes, present ∈ (m.addAttributes calls).attributes := by
  rw [← bareSize_eq]
  refine ⟨?_, fun calls present member => mem_addAttributes member calls⟩
  constructor
  · rintro ⟨calls, others, made⟩
    have kept : lastWrite type (acceptedCalls calls) = none := by
      apply lastWrite_eq_none.mpr
      intro call member
      exact others call (List.mem_of_mem_filter member)
    exact Nat.le_trans (bareSize_le kept) (toTlv_ok_iff_small.mp made)
  · intro room
    refine ⟨erasing m type, fun call member => (mem_erasing member).1, ?_⟩
    exact toTlv_ok_iff_small.mpr (Nat.le_trans (attributesSize_erased m type) room)

/-! ## Two messages -/

theorem sameTlv_iff {m m' : WscMessage} (reached : Reachable m) (reached' : Reachable m') :
    SameTlv m m' ↔ m = m' ∨ 65535 < attributesSize m ∧ 65535 < attributesSize m' := by
  constructor
  · rintro (⟨tlv, made, made'⟩ | ⟨e, throws, throws'⟩)
    · left
      obtain ⟨fits, rfl, -⟩ := toTlv_ok_iff.mp made
      obtain ⟨fits', same, -⟩ := toTlv_ok_iff.mp made'
      have values : packedBytes m = packedBytes m' := congrArg Tlv.value same
      have read := ofRaw_packedBytes reached.fits
      rw [values, ofRaw_packedBytes reached'.fits] at read
      exact (Except.ok.inj read).symm
    · right
      have large {m m' : WscMessage} (throws : toTlv.run m = .error e m') : 65535 < attributesSize m := by
        by_contra small
        obtain ⟨fits, made⟩ := toTlv_small (Nat.le_of_not_lt small)
        rw [throws] at made
        cases made
      exact ⟨large throws, large throws'⟩
  · rintro (rfl | ⟨large, large'⟩)
    · rcases Nat.lt_or_ge 65535 (attributesSize m) with large | small
      · exact .inr ⟨_, toTlv_large large, toTlv_large large⟩
      · obtain ⟨fits, made⟩ := toTlv_small small
        exact .inl ⟨_, made, made⟩
    · exact .inr ⟨_, toTlv_large large, toTlv_large large'⟩

/-- A difference under a type that can still be sent is told by erasing everything else. -/
theorem told_apart {m m' : WscMessage} (reached : Reachable m) (reached' : Reachable m') {type : UInt16}
    (differ : m.attributes[type]? ≠ m'.attributes[type]?) (room : bareSize m type ≤ 65535) :
    ∃ calls, ¬ SameTlv (m.addAttributes calls) (m'.addAttributes calls) := by
  refine ⟨erasing m type, ?_⟩
  intro same
  have small := attributesSize_erased m type
  rcases (sameTlv_iff (reachable_addAttributes reached _) (reachable_addAttributes reached' _)).mp same with equal | ⟨large, -⟩
  · have entries := congrArg (fun m : WscMessage => m.attributes[type]?) equal
    simp only [addAttributes_attributes, getElem?_insertMany, lastWrite_erasing, Option.none_or] at entries
    exact differ entries
  · omega

theorem exists_differ {m m' : WscMessage} (apart : m ≠ m') : ∃ type : UInt16, m.attributes[type]? ≠ m'.attributes[type]? := by
  by_contra none
  have maps : m.attributes = m'.attributes := by
    apply ExtTreeMap.ext_getElem?
    intro type
    by_contra other
    exact none ⟨type, other⟩
  exact apart (congrArg WscMessage.mk maps)

/-- What differs behind calls was left alone by them, and differed before. -/
theorem differ_of_calls {m m' : WscMessage} {calls : List (UInt16 × List UInt8)} {type : UInt16}
    (differ : (m.addAttributes calls).attributes[type]? ≠ (m'.addAttributes calls).attributes[type]?) :
    lastWrite type (acceptedCalls calls) = none ∧ m.attributes[type]? ≠ m'.attributes[type]? := by
  rw [addAttributes_attributes, addAttributes_attributes, getElem?_insertMany, getElem?_insertMany] at differ
  cases kept : lastWrite type (acceptedCalls calls) with
  | some value =>
    rw [kept] at differ
    exact absurd rfl differ
  | none =>
    rw [kept, Option.none_or, Option.none_or] at differ
    exact ⟨rfl, differ⟩

/-- **When two messages are never told apart**: whatever `AddAttribute` calls are made on both,
`ToTlv` gives the same, if and only if every type under which they differ leaves no room for
its value in either of them. -/
theorem wsc_contexts {m m' : WscMessage} (reached : Reachable m) (reached' : Reachable m') :
    (∀ calls, SameTlv (m.addAttributes calls) (m'.addAttributes calls)) ↔
      ∀ type, m.attributes[type]? = m'.attributes[type]? ∨
        65535 < 4 * m.attributes.size + (m.getAttributeValue type).length ∧
        65535 < 4 * m'.attributes.size + (m'.getAttributeValue type).length := by
  simp only [← bareSize_eq]
  constructor
  · intro same type
    by_contra told
    rw [not_or] at told
    obtain ⟨differ, room⟩ := told
    rcases Nat.lt_or_ge 65535 (bareSize m type) with lost | sendable
    · have sendable' : bareSize m' type ≤ 65535 := Nat.le_of_not_lt fun lost' => room ⟨lost, lost'⟩
      obtain ⟨calls, telling⟩ := told_apart reached' reached (Ne.symm differ) sendable'
      exact telling (same calls).symm
    · obtain ⟨calls, telling⟩ := told_apart reached reached' differ sendable
      exact telling (same calls)
  · intro hidden calls
    apply (sameTlv_iff (reachable_addAttributes reached calls) (reachable_addAttributes reached' calls)).mpr
    by_cases equal : m.addAttributes calls = m'.addAttributes calls
    · exact .inl equal
    · obtain ⟨type, differ⟩ := exists_differ equal
      obtain ⟨kept, before⟩ := differ_of_calls differ
      obtain ⟨lost, lost'⟩ := (hidden type).resolve_left before
      exact .inr ⟨Nat.lt_of_lt_of_le lost (bareSize_le kept), Nat.lt_of_lt_of_le lost' (bareSize_le kept)⟩

/-- Two SSIDs are told apart. -/
theorem wsc_contexts_ssid :
    ¬ ∀ calls, SameTlv ((WscMessage.empty.step (WscAttributes.wscSsid, [0x68])).addAttributes calls)
      ((WscMessage.empty.step (WscAttributes.wscSsid, [0x69])).addAttributes calls) := by
  intro same
  have hidden := (wsc_contexts (.called .empty _) (.called .empty _)).mp same WscAttributes.wscSsid
  revert hidden
  decide +kernel

end Ieee1905.Wsc
