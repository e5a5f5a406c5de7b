import Ieee1905.Wire.Diagnosis

/-!
# Editing a packet in place

What `Parse` does behind whole TLVs does not depend on them (`parse_behind_tlvs`): it is what it
does behind the header alone, and the TLVs come in front of the result. So bytes at TLV
boundaries can be edited without parsing the rest: TLVs that are inserted, deleted or replaced
there are inserted, deleted or replaced in the message (`parse_splice`).
-/

namespace Ieee1905.Wire

open Codec MessageParser

/-- The message when `ts` stood in front of its TLVs. -/
def prepend (ts : List Tlv) (c : Cmdu) : Cmdu := { c with tlvs := ts ++ c.tlvs }

/-- **The TLVs that are read do not matter for what follows.** -/
theorem parse_behind_tlvs {h : List UInt8} (size : h.length = 8) {ts : List Tlv} (clean : Clean Tlv.isEnd ts)
    (rest : List UInt8) : parse (h ++ (encodeTlvs ts ++ rest)) = (parse (h ++ rest)).map (prepend ts) := by
  obtain ⟨words, ending, d⟩ := exists_divides encode_ne_nil Tlv.isEnd rest
  have front : Divides tlvCode Tlv.isEnd (encodeTlvs ts) ts .done := ⟨clean, (List.append_nil _).symm, trivial⟩
  have whole := front.append d
  have split := behind_of_divides size d
  have split' := behind_of_divides size whole
  -- by what stands behind the last whole TLV, which is the same on both sides
  cases ending with
  | done =>
    rw [split.parse_nil, split'.parse_nil]
    rfl
  | broken tail =>
    rw [split.parse_broken d.valid, split'.parse_broken d.valid]
    rfl
  | sentinel e p =>
    have isEnd : e.type = 0 := Tlv.isEnd_iff.mp d.valid
    have read : Decomposes (h ++ rest) h words e p := by
      refine ⟨?_, size, split.payload, isEnd⟩
      rw [split.bytes, List.append_assoc _ e.encode]
      rfl
    have read' : Decomposes (h ++ (encodeTlvs ts ++ rest)) h (ts ++ words) e p := by
      refine ⟨?_, size, split'.payload, isEnd⟩
      rw [split'.bytes, List.append_assoc _ e.encode]
      rfl
    rw [parse_message read.begins, parse_message read'.begins]
    simp [Except.map, prepend, Message.cmdu, Decomposes.message, Terminated.toList]

/-- Where the bytes in front of a TLV of a message end. -/
theorem message_split {b p : List UInt8} {m : Message} (word : messageCode.Begins b m p) {pre post : List Tlv}
    (parts : m.2.toList = pre ++ post) : b.take (8 + (encodeTlvs pre).length) = m.1.1 ++ encodeTlvs pre ∧
      b.drop (8 + (encodeTlvs pre).length) = encodeTlvs post ++ p := by
  have bytes : b = (m.1.1 ++ encodeTlvs pre) ++ (encodeTlvs post ++ p) := by
    rw [PrefixCode.Begins, messageCode_enc, parts] at word
    rw [word]
    simp [encodeTlvs]
  have size : (m.1.1 ++ encodeTlvs pre).length = 8 + (encodeTlvs pre).length := by
    rw [List.length_append, m.1.2]
    rfl
  rw [bytes, ← size, List.take_left, List.drop_left]
  exact ⟨rfl, rfl⟩

/-- What is left of a message without its first TLVs. -/
theorem parse_rest {b p : List UInt8} {m : Message} (word : messageCode.Begins b m p) {pre post : List Tlv}
    (parts : m.2.toList = pre ++ post) (clean : Clean Tlv.isEnd pre) :
    parse (m.1.1 ++ (encodeTlvs post ++ p)) = .ok { m.cmdu with tlvs := post } := by
  have whole := parse_behind_tlvs m.1.2 clean (encodeTlvs post ++ p)
  obtain ⟨front, back⟩ := message_split word parts
  rw [← List.append_assoc, ← front, ← back, List.take_append_drop, parse_message word] at whole
  rw [← back]
  cases read : parse (m.1.1 ++ b.drop (8 + (encodeTlvs pre).length)) with
  | error e =>
    rw [read] at whole
    cases whole
  | ok c =>
    rw [read] at whole
    have same : m.cmdu = prepend pre c := Except.ok.inj whole
    have tlvs : m.2.toList = pre ++ c.tlvs := congrArg Cmdu.tlvs same
    have behind : post = c.tlvs := List.append_cancel_left (parts.symm.trans tlvs)
    rw [same, behind]
    rfl

/-- **Edits of packets are edits of messages.** Take any place between two TLVs of an accepted
message. Whatever bytes are put there, the outcome is theirs behind the header alone, its errors
too, with the TLVs in front added. TLVs put in the place of others are in their place in the
message, whatever follows it; a terminator among them ends the message there. And a header put
in the place of the header changes the fields only. -/
theorem parse_splice {b : List UInt8} {c : Cmdu} (accepted : parse b = .ok c) {pre mid post : List Tlv}
    (parts : c.getTlvs = pre ++ mid ++ post) (more : post ≠ []) :
    let front := b.take (8 + (encodeTlvs pre).length)
    let back := b.drop (8 + (encodeTlvs (pre ++ mid)).length)
    (∀ rest, parse (front ++ rest) = (parse (b.take 8 ++ rest)).map (prepend pre)) ∧
    (∀ us, (∀ t ∈ us, t.getType ≠ TlvTypes.endOfMessage) →
      parse (front ++ encodeTlvs us ++ back) = .ok { c with tlvs := pre ++ us ++ post }) ∧
    (∀ us e rest, (∀ t ∈ us, t.getType ≠ TlvTypes.endOfMessage) → e.getType = TlvTypes.endOfMessage →
      parse (front ++ encodeTlvs (us ++ [e]) ++ rest) = .ok { c with tlvs := pre ++ us ++ [e] }) ∧
    ∀ h, h.length = 8 → ∃ c', parse (h ++ b.drop 8) = .ok c' ∧ ReadsAs (h ++ b.drop 8) c.getTlvs c' := by
  obtain ⟨m, p, word, rfl⟩ := parse_ok_iff.mp accepted
  obtain ⟨x, post, rfl⟩ := List.exists_cons_of_ne_nil more
  have whole : m.2.toList = (pre ++ mid) ++ x :: post := parts
  have clean : Clean Tlv.isEnd pre := by
    intro t member
    exact m.2.clean_front whole t (List.mem_append_left mid member)
  have front := (message_split word (whole.trans (List.append_assoc pre mid _))).1
  have back := (message_split word whole).2
  have header := message_split word (List.nil_append m.2.toList).symm
  rw [encodeTlvs, List.flatMap_nil, List.length_nil, Nat.add_zero, List.append_nil] at header
  simp only [front, back]
  refine ⟨?_, ?_, ?_, ?_⟩
  · intro rest
    rw [header.1, List.append_assoc]
    exact parse_behind_tlvs m.1.2 clean rest
  · intro us plain
    have bytes : m.1.1 ++ encodeTlvs pre ++ encodeTlvs us ++ (encodeTlvs (x :: post) ++ p) =
        m.1.1 ++ (encodeTlvs (pre ++ us) ++ (encodeTlvs (x :: post) ++ p)) := by
      simp [encodeTlvs]
    rw [bytes, parse_behind_tlvs m.1.2 (clean.append (clean_iff.mpr plain)),
      parse_rest word whole (m.2.clean_front whole)]
    rfl
  · intro us e rest plain isEnd
    have d : Decomposes (m.1.1 ++ encodeTlvs pre ++ encodeTlvs (us ++ [e]) ++ rest) m.1.1 (pre ++ us) e rest := by
      refine ⟨?_, m.1.2, clean_iff.mp (clean.append (clean_iff.mpr plain)), isEnd⟩
      simp [encodeTlvs]
    exact parse_message d.begins
  · intro h size
    let m' : Message := (⟨h, size⟩, m.2)
    have word' : messageCode.Begins (h ++ b.drop 8) m' p := by
      rw [PrefixCode.Begins, messageCode_enc, header.2, List.append_assoc]
    exact ⟨m'.cmdu, parse_message word', (decomposes_of_begins word').readsAs⟩

/-- A TLV put in front of the only one, the only one left out, and half a header behind it. -/
theorem parse_splice_device :
    let b := [0, 0, 0, 0, 0, 1, 0, 0x80, 3, 0, 1, 0x11, 0, 0, 0, 0xFF]
    let device : Tlv := ⟨TlvTypes.deviceInformationType, [0x11], by decide⟩
    let wsc : Tlv := ⟨TlvTypes.wsc, [], by decide⟩
    parse (b.take 8 ++ encodeTlvs [wsc] ++ b.drop 8) = .ok ⟨0, 1, 0x80, 0, [wsc, device, emptyEnd]⟩ ∧
    parse (b.take 8 ++ [] ++ b.drop 12) = .ok ⟨0, 1, 0x80, 0, [emptyEnd]⟩ ∧
    parse (b.take 12 ++ [17, 0]) = .error (.runtimeError "Incomplete TLV header found at end of buffer.") := by
  intro b device wsc
  have accepted : parse b = .ok ⟨0, 1, 0x80, 0, [device, emptyEnd]⟩ := by decide +kernel
  have inFront : [device, emptyEnd] = [] ++ [] ++ [device, emptyEnd] := rfl
  have only : [device, emptyEnd] = [] ++ [device] ++ [emptyEnd] := rfl
  have behind : [device, emptyEnd] = [device] ++ [] ++ [emptyEnd] := rfl
  obtain ⟨-, inserted, -⟩ := parse_splice accepted inFront (by decide)
  obtain ⟨-, removed, -⟩ := parse_splice accepted only (by decide)
  obtain ⟨cut, -⟩ := parse_splice accepted behind (by decide)
  have half : parse (b.take 8 ++ [17, 0]) = .error (.runtimeError "Incomplete TLV header found at end of buffer.") := by
    decide +kernel
  have broken := cut [17, 0]
  rw [half] at broken
  exact ⟨inserted [wsc] (by decide), removed [] (by decide), broken⟩

end Ieee1905.Wire
