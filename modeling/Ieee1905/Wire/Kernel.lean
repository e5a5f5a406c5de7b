import Ieee1905.Wire.Canonical
import Ieee1905.Wire.Diagnosis

/-!
# What `Pack` and `Parse` identify

Two CMDUs pack to the same bytes only if one is the other with the terminator that `Pack` would
have appended, and a terminator added to both tells even these apart; two buffers parse to the
same CMDU only if what they give up agrees behind the version and the reserved byte. Up to that
the two functions are inverse to each other, between CMDUs whose terminator is in last position
only and buffers that are one message from end to end (`pack_image`).
-/

namespace Ieee1905.Wire

open Codec MessageSerializer MessageParser

/-! ## `Pack` -/

/-- The header bytes determine the fields. -/
theorem headerBytes_injective {c c' : Cmdu} (same : headerBytes c = headerBytes c') :
    c.type = c'.type ∧ c.id = c'.id ∧ c.fragmentId = c'.fragmentId ∧ c.flags = c'.flags := by
  let t : Terminated Tlv.isEnd := ⟨[], emptyEnd, Clean.nil, rfl⟩
  have headers : packedHeader c = packedHeader c' := Subtype.ext same
  have fields := Message.cmdu_packedHeader c t
  rw [headers, Message.cmdu_packedHeader, Cmdu.mk.injEq] at fields
  obtain ⟨type, id, flags, fragmentId, -⟩ := fields
  exact ⟨type.symm, id.symm, fragmentId.symm, flags.symm⟩

theorem encodeTlvs_injective : Function.Injective encodeTlvs := tlvCode.encAll_injective encode_ne_nil

theorem packBytes_eq_iff (c c' : Cmdu) :
    packBytes c = packBytes c' ↔ headerBytes c = headerBytes c' ∧ closeTlvs c.tlvs = closeTlvs c'.tlvs := by
  constructor
  · intro same
    obtain ⟨header, tlvs⟩ := List.append_inj same rfl
    exact ⟨header, encodeTlvs_injective tlvs⟩
  · rintro ⟨header, tlvs⟩
    rw [packBytes, packBytes, header, tlvs]

/-- **What `Pack` forgets**: only whether the terminator that it appends was there already. -/
theorem pack_kernel (c c' : Cmdu) :
    pack c = pack c' ↔
      (c.getType = c'.getType ∧ c.getId = c'.getId ∧ c.getFragmentId = c'.getFragmentId ∧ c.getFlags = c'.getFlags) ∧
      (c.getTlvs = c'.getTlvs ∨
        appendEndOfMessage c = true ∧ c'.getTlvs = c.getTlvs ++ [emptyEnd] ∨
        appendEndOfMessage c' = true ∧ c.getTlvs = c'.getTlvs ++ [emptyEnd]) := by
  have lacks (c : Cmdu) : appendEndOfMessage c = true ↔ endsInStop Tlv.isEnd c.tlvs = false := by
    rw [appendEndOfMessage, lacksEndOfMessage_eq, Bool.not_eq_true']
    rfl
  rw [pack_eq, pack_eq, Except.ok.injEq, packBytes_eq_iff, closeTlvs, closeTlvs, close_eq_close_iff isEnd_emptyEnd, lacks, lacks]
  constructor
  · rintro ⟨header, tlvs⟩
    exact ⟨headerBytes_injective header, tlvs⟩
  · rintro ⟨⟨type, id, fragmentId, flags⟩, tlvs⟩
    refine ⟨?_, tlvs⟩
    simp only [Cmdu.getType, Cmdu.getId, Cmdu.getFragmentId, Cmdu.getFlags] at type id fragmentId flags
    rw [headerBytes, headerBytes, type, id, fragmentId, flags]

/-! ## `Pack` behind further calls -/

theorem headerBytes_addTlvs (c : Cmdu) (ts : List Tlv) : headerBytes (c.addTlvs ts) = headerBytes c := by
  rw [addTlvs_eq]
  rfl

theorem closeTlvs_addTlvs (c : Cmdu) {ts : List Tlv} (clean : Clean Tlv.isEnd ts) :
    closeTlvs (c.addTlvs ts).tlvs = insertAll Tlv.isEnd (closeTlvs c.tlvs) ts := by
  rw [addTlvs_eq]
  exact close_insertAll isEnd_emptyEnd c.tlvs clean

/-- A terminator that is not the one that `Pack` appends. -/
def tellingEnd : Tlv := ⟨TlvTypes.endOfMessage, [0], by decide⟩

/-- It tells whether a terminator was there already: only then does an empty one stay behind it. -/
theorem packBytes_telling {c c' : Cmdu} (lacks : endsInStop Tlv.isEnd c.tlvs = false) (more : c'.tlvs = c.tlvs ++ [emptyEnd]) :
    packBytes (c.addTlvs [tellingEnd]) ≠ packBytes (c'.addTlvs [tellingEnd]) := by
  intro same
  obtain ⟨-, tlvs⟩ := (packBytes_eq_iff _ _).mp same
  have bare : (c.addTlvs [tellingEnd]).tlvs = c.tlvs ++ [tellingEnd] := by
    rw [addTlvs_eq]
    show insertBeforeStop Tlv.isEnd c.tlvs tellingEnd = _
    rw [insertBeforeStop, lacks]
    exact if_neg Bool.false_ne_true
  have closed : (c'.addTlvs [tellingEnd]).tlvs = c.tlvs ++ [tellingEnd] ++ [emptyEnd] := by
    rw [addTlvs_eq, more]
    exact insertAll_stop isEnd_emptyEnd c.tlvs [tellingEnd]
  rw [bare, closed, closeTlvs, closeTlvs, close_stop rfl, close_stop isEnd_emptyEnd] at tlvs
  have lengths := congrArg List.length tlvs
  simp only [List.length_append, List.length_singleton] at lengths
  omega

/-- **What packets tell after further calls**: CMDUs that pack to the same bytes still do so after
any `AddTlv` calls without a terminator, so a caller who leaves the terminator to `Pack` cannot
tell them apart; with one, only equal CMDUs pack to the same bytes after all calls. -/
theorem pack_contexts (c c' : Cmdu) :
    ((∀ ts, Clean Tlv.isEnd ts → pack (c.addTlvs ts) = pack (c'.addTlvs ts)) ↔ pack c = pack c') ∧
    ((∀ ts, pack (c.addTlvs ts) = pack (c'.addTlvs ts)) ↔ c = c') := by
  simp only [pack_eq, Except.ok.injEq]
  refine ⟨⟨?_, ?_⟩, ⟨?_, ?_⟩⟩
  · intro same
    exact same [] Clean.nil
  · intro same ts clean
    obtain ⟨header, tlvs⟩ := (packBytes_eq_iff c c').mp same
    apply (packBytes_eq_iff _ _).mpr
    rw [headerBytes_addTlvs, headerBytes_addTlvs, closeTlvs_addTlvs c clean, closeTlvs_addTlvs c' clean]
    exact ⟨header, congrArg (insertAll Tlv.isEnd · ts) tlvs⟩
  · intro same
    obtain ⟨header, tlvs⟩ := (packBytes_eq_iff c c').mp (same [])
    obtain ⟨type, id, fragmentId, flags⟩ := headerBytes_injective header
    rcases (close_eq_close_iff isEnd_emptyEnd c.tlvs c'.tlvs).mp tlvs with equal | ⟨lacks, more⟩ | ⟨lacks, more⟩
    · cases c
      cases c'
      rw [Cmdu.mk.injEq]
      exact ⟨type, id, flags, fragmentId, equal⟩
    · exact absurd (same [tellingEnd]) (packBytes_telling lacks more)
    · exact absurd (same [tellingEnd]).symm (packBytes_telling lacks more)
  · rintro rfl ts
    rfl

/-! ## `Parse` -/

/-- A parsed message survives the next round trip as it is. -/
theorem parse_packBytes_cmdu (m : Message) : parse (packBytes m.cmdu) = .ok m.cmdu := by
  have tlvs : cut Tlv.isEnd (closeTlvs m.2.toList) = m.2.toList := by
    rw [closeTlvs_terminated]
    exact cut_split m.2.clean m.2.isStop []
  rw [parse_packBytes]
  exact congrArg (fun tlvs => Except.ok { m.cmdu with tlvs := tlvs }) tlvs

/-- **What `Parse` forgets**: the version, the reserved byte and what follows the message. -/
theorem parse_kernel {b b' : List UInt8} {c c' : Cmdu} (accepted : parse b = .ok c) (accepted' : parse b' = .ok c') :
    c = c' ↔ (b.take (wireSize c)).drop 2 = (b'.take (wireSize c')).drop 2 := by
  obtain ⟨m, p, word, rfl⟩ := parse_ok_iff.mp accepted
  obtain ⟨m', p', word', rfl⟩ := parse_ok_iff.mp accepted'
  have bytes := packBytes_cmdu m
  have bytes' := packBytes_cmdu m'
  rw [← take_wireSize word] at bytes
  rw [← take_wireSize word'] at bytes'
  constructor
  · intro same
    have packets := congrArg packBytes same
    rw [bytes, bytes'] at packets
    exact List.append_cancel_left packets
  · intro same
    rw [same, ← bytes'] at bytes
    have again := parse_packBytes_cmdu m
    rw [bytes, parse_packBytes_cmdu] at again
    exact (Except.ok.inj again).symm

/-- Two discovery messages that differ in version, reserved byte and padding. -/
theorem parse_kernel_discovery :
    ∃ c c', parse [0, 0, 0, 0, 0, 1, 0, 0x80, 0, 0, 0] = .ok c ∧ parse [7, 7, 0, 0, 0, 1, 0, 0x80, 0, 0, 0, 9] = .ok c' ∧
      c = c' := by
  have accepted : parse [0, 0, 0, 0, 0, 1, 0, 0x80, 0, 0, 0] = .ok ((Cmdu.new 0 1).addTlv emptyEnd) := by decide +kernel
  have accepted' : parse [7, 7, 0, 0, 0, 1, 0, 0x80, 0, 0, 0, 9] = .ok ((Cmdu.new 0 1).addTlv emptyEnd) := by decide +kernel
  exact ⟨_, _, accepted, accepted', (parse_kernel accepted accepted').mpr (by decide)⟩

/-! ## The image of `Pack` -/

/-- A header of six bytes behind a reset version and reserved byte, with its fields. -/
theorem exists_headerBytes {h : List UInt8} (size : h.length = 6) (tlvs : List Tlv) :
    ∃ c : Cmdu, c.tlvs = tlvs ∧ headerBytes c = [0, 0] ++ h := by
  have whole : ([0, 0] ++ h).length = Cmdu.cmduHeaderSize := by
    rw [List.length_append, size]
    rfl
  let m : Message := (⟨[0, 0] ++ h, whole⟩, ⟨[], emptyEnd, Clean.nil, rfl⟩)
  refine ⟨{ m.cmdu with tlvs := tlvs }, rfl, ?_⟩
  exact headerBytes_cmdu m

/-- **What `Pack` writes, and what of it is read back whole.** Its packets are the buffers with
version and reserved byte zero that go on with six header bytes and TLVs, the last one a
terminator. Among them those of CMDUs with their terminator in last position only are the
buffers that `Parse` takes as one message from end to end. -/
theorem pack_image (b : List UInt8) :
    ((∃ c, pack c = .ok b) ↔
      ∃ h ts e, b = [0, 0] ++ h ++ encodeTlvs (ts ++ [e]) ∧ h.length = 6 ∧ e.getType = TlvTypes.endOfMessage) ∧
    ((∃ c, TerminatorLastOnly c ∧ pack c = .ok b) ↔
      ∃ c, parse b = .ok c ∧ wireSize c = b.length ∧ b.take 2 = [0, 0]) ∧
    ∀ c, parse b = .ok c → wireSize c = b.length → b.take 2 = [0, 0] → pack c = .ok b := by
  have resets : ∀ c, parse b = .ok c → wireSize c = b.length → b.take 2 = [0, 0] → pack c = .ok b := by
    intro c accepted whole reset
    obtain ⟨m, p, word, rfl⟩ := parse_ok_iff.mp accepted
    rw [pack_eq, packBytes_cmdu, ← take_wireSize word, whole, List.take_length, ← reset, List.take_append_drop]
  refine ⟨⟨?_, ?_⟩, ⟨?_, ?_⟩, resets⟩
  · rintro ⟨c, packed⟩
    rw [pack_eq] at packed
    obtain rfl := Except.ok.inj packed
    obtain ⟨ts, e, closed, isEnd⟩ := exists_close_concat isEnd_emptyEnd c.tlvs
    refine ⟨be16 c.type ++ be16 c.id ++ [c.fragmentId, c.flags], ts, e, ?_, rfl, Tlv.isEnd_iff.mp isEnd⟩
    rw [packBytes, closeTlvs, closed]
    rfl
  · rintro ⟨h, ts, e, rfl, size, isEnd⟩
    obtain ⟨c, tlvs, header⟩ := exists_headerBytes size (ts ++ [e])
    refine ⟨c, ?_⟩
    rw [pack_eq, packBytes, header, tlvs, closeTlvs, close_stop (Tlv.isEnd_iff.mpr isEnd)]
  · rintro ⟨c, lastOnly, packed⟩
    rw [pack_eq] at packed
    obtain rfl := Except.ok.inj packed
    obtain ⟨t, -, word⟩ := packBytes_word lastOnly
    have size := word.length
    rw [length_messageCode, List.length_nil, Nat.add_zero] at size
    exact ⟨_, parse_message word, size.symm, rfl⟩
  · rintro ⟨c, accepted, whole, reset⟩
    have packed := resets c accepted whole reset
    obtain ⟨m, p, -, rfl⟩ := parse_ok_iff.mp accepted
    exact ⟨m.cmdu, terminatorLastOnly_cmdu m, packed⟩

end Ieee1905.Wire
