import Ieee1905.Wire.Packing
import Ieee1905.Wire.Parsing

/-!
# From `Pack` to `Parse`

Every packet starts with a message, so it is always accepted; what comes back is the list
of TLVs, closed and then cut at its first terminator (`parse_packBytes`). `AddTlv` keeps
the terminator that came first at the end and leaves any later one in the middle, where it
hides what follows: `nothingLost_iff` says which sequences of calls lose nothing.
-/

namespace Ieee1905.Wire

open Codec MessageSerializer MessageParser

/-- A packet starts with the message made of its header and its TLVs up to the first
terminator. -/
theorem packBytes_begins (c : Cmdu) :
    ∃ (t : Terminated Tlv.isEnd) (p : List UInt8),
      messageCode.Begins (packBytes c) (packedHeader c, t) p ∧
      t.toList = cut Tlv.isEnd (closeTlvs c.tlvs) := by
  obtain ⟨t, rest, split, read⟩ := close_split isEnd_emptyEnd c.tlvs
  refine ⟨t, encodeTlvs rest, ?_, read.symm⟩
  rw [PrefixCode.Begins, messageCode_enc, packBytes, closeTlvs, split, encodeTlvs_append, ← List.append_assoc]
  rfl

theorem parse_packBytes_append (c : Cmdu) (padding : List UInt8) :
    parse (packBytes c ++ padding) = .ok { c with tlvs := cut Tlv.isEnd (closeTlvs c.tlvs) } := by
  obtain ⟨t, p, word, read⟩ := packBytes_begins c
  rw [parse_message (word.append padding), Message.cmdu_packedHeader, read]

theorem parse_packBytes (c : Cmdu) :
    parse (packBytes c) = .ok { c with tlvs := cut Tlv.isEnd (closeTlvs c.tlvs) } := by
  have bare := parse_packBytes_append c []
  rwa [List.append_nil] at bare

theorem pack_parse (c : Cmdu) :
    (pack c >>= parse) = .ok { c with tlvs := cut Tlv.isEnd (closeTlvs c.tlvs) } := by
  rw [pack_eq]
  exact parse_packBytes c

/-- **The round trip of a CMDU** built by any sequence of `AddTlv` calls. -/
theorem pack_parse_addTlvs (type : MessageType) (id : MessageId) (flags : MessageFlags) (fragmentId : FragmentId)
    (ts : List Tlv) :
    ∃ d, (pack ((Cmdu.new type id flags fragmentId).addTlvs ts) >>= parse) = .ok d ∧
      d.getType = type ∧ d.getId = id ∧ d.getFragmentId = fragmentId ∧ d.getFlags = flags ∧
      d.getTlvs = cut Tlv.isEnd (close Tlv.isEnd emptyEnd ((Cmdu.new type id flags fragmentId).addTlvs ts).getTlvs) ∧
      (ts.countP Tlv.isEnd ≤ 1 →
        d.getTlvs = payload Tlv.isEnd ts ++ [(ts.find? Tlv.isEnd).getD emptyEnd]) := by
  have stored := addTlvs_eq (Cmdu.new type id flags fragmentId) ts
  refine ⟨_, pack_parse _, ?_, ?_, ?_, ?_, rfl, ?_⟩
  · rw [stored]
    rfl
  · rw [stored]
    rfl
  · rw [stored]
    rfl
  · rw [stored]
    rfl
  · intro few
    rw [stored]
    exact read_of_count isEnd_emptyEnd few

/-! ## Nothing lost -/

/-- Where a CMDU comes from before `AddTlv` is called on it. -/
inductive Origin : Cmdu → Prop where
  | constructed (type : MessageType) (id : MessageId) (flags : MessageFlags) (fragmentId : FragmentId) :
      Origin (Cmdu.new type id flags fragmentId)
  | parsed {b : List UInt8} {c : Cmdu} (accepted : parse b = .ok c) : Origin c

/-- The peer gets every TLV that `c` holds, terminators aside, in the same order. -/
def NothingLost (c : Cmdu) : Prop :=
  ∃ d, (pack c >>= parse) = .ok d ∧ payload Tlv.isEnd d.getTlvs = payload Tlv.isEnd c.getTlvs

/-- Only the last TLV may be a terminator. -/
def TerminatorLastOnly (c : Cmdu) : Prop := ∀ t ∈ c.getTlvs.dropLast, t.isEnd = false

instance (c : Cmdu) : Decidable (TerminatorLastOnly c) :=
  inferInstanceAs (Decidable (∀ t ∈ c.getTlvs.dropLast, t.isEnd = false))

/-- A parsed message is as if its TLVs had been added to an empty one, and so is the
constructed one. -/
theorem Origin.insertAll_tlvs {c : Cmdu} (origin : Origin c) : insertAll Tlv.isEnd [] c.tlvs = c.tlvs := by
  cases origin with
  | constructed type id flags fragmentId => rfl
  | parsed accepted =>
    obtain ⟨m, p, -, rfl⟩ := parse_ok_iff.mp accepted
    exact insertAll_terminated m.2

theorem Origin.addTlvs_tlvs {start : Cmdu} (origin : Origin start) (xs : List Tlv) :
    (start.addTlvs xs).tlvs = insertAll Tlv.isEnd [] (start.tlvs ++ xs) := by
  rw [addTlvs_eq, insertAll_append, origin.insertAll_tlvs]

theorem nothingLost_iff_payload (c : Cmdu) :
    NothingLost c ↔ payload Tlv.isEnd (cut Tlv.isEnd (closeTlvs c.tlvs)) = payload Tlv.isEnd c.tlvs := by
  constructor
  · rintro ⟨d, run, kept⟩
    rw [pack_parse] at run
    cases run
    exact kept
  · intro kept
    exact ⟨_, pack_parse c, kept⟩

/-- **Which histories lose nothing.** The history is what the message held when it was
parsed (nothing for a new one) followed by what was added. The TLVs all arrive exactly
when nothing but terminators was added behind the second terminator; and they arrive with
the terminator in last position only exactly when there is at most one. -/
theorem nothingLost_iff {start : Cmdu} (origin : Origin start) (xs : List Tlv) :
    (NothingLost (start.addTlvs xs) ↔
      ∀ t ∈ behindStop Tlv.isEnd (behindStop Tlv.isEnd (start.getTlvs ++ xs)), t.isEnd = true) ∧
    (NothingLost (start.addTlvs xs) ∧ TerminatorLastOnly (start.addTlvs xs) ↔
      (start.getTlvs ++ xs).countP Tlv.isEnd ≤ 1) := by
  have lost := nothingLost_iff_payload (start.addTlvs xs)
  rw [origin.addTlvs_tlvs, closeTlvs, payload_read_iff isEnd_emptyEnd] at lost
  have last : TerminatorLastOnly (start.addTlvs xs) ↔ (start.tlvs ++ xs).countP Tlv.isEnd ≤ 1 := by
    rw [← stop_last_iff, ← origin.addTlvs_tlvs]
    rfl
  refine ⟨lost, ?_⟩
  rw [lost, last]
  constructor
  · exact And.right
  · intro few
    refine ⟨?_, few⟩
    intro t member
    have none := behindStop_of_count few
    simp only [Cmdu.getTlvs] at none
    rw [none] at member
    cases member

/-- A payload added to a received message arrives in front of its terminator; behind a further
terminator it is lost. -/
theorem parsed_addTlvs_loses :
    parse [0, 0, 0, 2, 0, 1, 0, 0x80, 0, 0, 0] = .ok ((Cmdu.new 2 1).addTlv emptyEnd) ∧
    NothingLost (((Cmdu.new 2 1).addTlv emptyEnd).addTlvs [⟨TlvTypes.wsc, [1], by decide⟩]) ∧
    TerminatorLastOnly (((Cmdu.new 2 1).addTlv emptyEnd).addTlvs [⟨TlvTypes.wsc, [1], by decide⟩]) ∧
    ¬ NothingLost (((Cmdu.new 2 1).addTlv emptyEnd).addTlvs [emptyEnd, ⟨TlvTypes.wsc, [1], by decide⟩]) := by
  have accepted : parse [0, 0, 0, 2, 0, 1, 0, 0x80, 0, 0, 0] = .ok ((Cmdu.new 2 1).addTlv emptyEnd) := by
    decide +kernel
  have few : (((Cmdu.new 2 1).addTlv emptyEnd).getTlvs ++ [(⟨TlvTypes.wsc, [1], by decide⟩ : Tlv)]).countP Tlv.isEnd ≤ 1 := by
    decide
  obtain ⟨arrives, lastOnly⟩ := (nothingLost_iff (.parsed accepted) _).2.mpr few
  refine ⟨accepted, arrives, lastOnly, fun kept => ?_⟩
  have all := (nothingLost_iff (.parsed accepted) _).1.mp kept ⟨TlvTypes.wsc, [1], by decide⟩ (by decide +kernel)
  cases all

/-- Two terminators and then a payload: the peer does not get the payload. -/
theorem addTlv_loses :
    ¬ NothingLost ((Cmdu.new 0 1).addTlvs [emptyEnd, emptyEnd, ⟨TlvTypes.deviceInformationType, [0x11], by decide⟩]) := by
  rw [nothingLost_iff_payload]
  decide +kernel

end Ieee1905.Wire
