import Ieee1905.Wire.Truncation

/-!
# Packing a received message

What `Parse` keeps of a buffer is the message it starts with, minus version and reserved
byte. Packing it again gives those bytes back (`packBytes_cmdu`), and TLVs added in
between appear on the wire right in front of the terminator (`packBytes_addTlvs`).
-/

namespace Ieee1905.Wire

open Codec MessageSerializer MessageParser

theorem take_wireSize {b p : List UInt8} {m : Message} (word : messageCode.Begins b m p) :
    b.take (wireSize m.cmdu) = m.1.1 ++ encodeTlvs m.2.toList := by
  rw [PrefixCode.Begins] at word
  rw [word, ← length_messageCode, List.take_left, messageCode_enc]

theorem closeTlvs_terminated (t : Terminated Tlv.isEnd) : closeTlvs t.toList = t.toList :=
  close_stop t.isStop emptyEnd t.body

theorem two_le_header (m : Message) : 2 ≤ m.1.1.length := by
  rw [m.1.2]
  decide

/-- A message packs to itself with the first two bytes reset. -/
theorem packBytes_cmdu (m : Message) : packBytes m.cmdu = [0, 0] ++ (m.1.1 ++ encodeTlvs m.2.toList).drop 2 := by
  rw [packBytes, headerBytes_cmdu, List.drop_append_of_le_length (two_le_header m), List.append_assoc]
  exact congrArg (fun tlvs => [0, 0] ++ (m.1.1.drop 2 ++ encodeTlvs tlvs)) (closeTlvs_terminated m.2)

/-- Packing resets nothing that a packet does not already have reset. -/
theorem parse_pack_packBytes {c : Cmdu} (lastOnly : TerminatorLastOnly c) :
    (parse (packBytes c) >>= pack) = .ok (packBytes c) := by
  obtain ⟨t, closed, word⟩ := packBytes_word lastOnly
  have same : packBytes { c with tlvs := t.toList } = packBytes c := by
    rw [packBytes, packBytes, closed]
    exact congrArg (fun tlvs => headerBytes c ++ encodeTlvs tlvs) (closeTlvs_terminated t)
  rw [parse_message word, Message.cmdu_packedHeader, ← same]
  exact pack_eq _

theorem terminatorLastOnly_cmdu (m : Message) : TerminatorLastOnly m.cmdu := by
  intro t member
  have split : m.cmdu.getTlvs.dropLast = m.2.body := List.dropLast_concat
  rw [split] at member
  exact m.2.clean t member

/-- **Re-serialising is canonical.** Packing what was parsed gives the consumed bytes back
with version and reserved byte zero, appends no further terminator and is idempotent; it
is the identity on packets whose terminator is in last position only. -/
theorem parse_pack_canonical :
    (∀ b c, parse b = .ok c → ∃ bytes, pack c = .ok bytes ∧ bytes.length = wireSize c ∧
      bytes = [0, 0] ++ (b.take (wireSize c)).drop 2 ∧ appendEndOfMessage c = false ∧
      (parse bytes >>= pack) = .ok bytes) ∧
    (∀ c b, TerminatorLastOnly c → pack c = .ok b → (parse b >>= pack) = .ok b) := by
  constructor
  · intro b c accepted
    obtain ⟨m, p, word, rfl⟩ := parse_ok_iff.mp accepted
    have bytes := packBytes_cmdu m
    rw [← take_wireSize word] at bytes
    refine ⟨packBytes m.cmdu, pack_eq _, ?_, bytes, lacksEndOfMessage_terminated m.2, ?_⟩
    · have long : 8 ≤ wireSize m.cmdu := Nat.le_add_right _ _
      have fits := wireSize_le word
      rw [bytes]
      simp only [List.length_append, List.length_drop, List.length_take, List.length_cons, List.length_nil]
      omega
    · exact parse_pack_packBytes (terminatorLastOnly_cmdu m)
  · intro c b lastOnly packed
    rw [pack_eq] at packed
    obtain rfl := Except.ok.inj packed
    exact parse_pack_packBytes lastOnly

/-- A packet with all reserved flag bits and a terminator that carries a byte comes back. -/
theorem parse_pack_canonical_flags :
    (parse [0, 0, 0, 0, 0, 1, 0, 0xFF, 0, 0, 1, 7] >>= pack) = .ok [0, 0, 0, 0, 0, 1, 0, 0xFF, 0, 0, 1, 7] :=
  parse_pack_canonical.2 ⟨0, 1, 0xFF, 0, [⟨0, [7], by decide⟩]⟩ _ (by decide) (by decide +kernel)

/-! ## Extending a received message -/

/-- Whatever is added to a received message goes in front of its terminator. -/
theorem addTlvs_cmdu (m : Message) (xs : List Tlv) :
    m.cmdu.addTlvs xs = { m.cmdu with tlvs := m.2.body ++ xs ++ [m.2.last] } := by
  rw [addTlvs_eq]
  exact congrArg (fun tlvs => { m.cmdu with tlvs := tlvs }) (insertAll_stop m.2.isStop m.2.body xs)

theorem encodeTlvs_terminated (t : Terminated Tlv.isEnd) : encodeTlvs t.toList = encodeTlvs t.body ++ t.last.encode := by
  simp [Terminated.toList, encodeTlvs]

/-- The bytes of an extended message: the old ones up to the terminator, the new TLVs, the
old terminator. -/
theorem packBytes_addTlvs (m : Message) (xs : List Tlv) :
    packBytes (m.cmdu.addTlvs xs) =
      [0, 0] ++ (m.1.1 ++ encodeTlvs m.2.body).drop 2 ++ encodeTlvs xs ++ m.2.last.encode := by
  have closed : closeTlvs (m.2.body ++ xs ++ [m.2.last]) = m.2.body ++ xs ++ [m.2.last] :=
    close_stop m.2.isStop emptyEnd _
  have header : headerBytes { m.cmdu with tlvs := m.2.body ++ xs ++ [m.2.last] } = headerBytes m.cmdu := rfl
  rw [addTlvs_cmdu, packBytes, header, headerBytes_cmdu, closed,
    List.drop_append_of_le_length (two_le_header m)]
  simp [encodeTlvs]

/-- **Extending a received message touches nothing else**, on the wire and in what the
next receiver parses. -/
theorem pack_addTlvs_received {b : List UInt8} {c : Cmdu} (accepted : parse b = .ok c) (xs : List Tlv)
    (others : ∀ t ∈ xs, t.getType ≠ TlvTypes.endOfMessage) :
    ∃ ts e, c.getTlvs = ts ++ [e] ∧ e.getType = TlvTypes.endOfMessage ∧
      (b.take (wireSize c)).drop (wireSize c - e.getPacketSize) = e.encode ∧
      pack (c.addTlvs xs) = .ok ([0, 0] ++ (b.take (wireSize c - e.getPacketSize)).drop 2 ++
        encodeTlvs xs ++ (b.take (wireSize c)).drop (wireSize c - e.getPacketSize)) ∧
      (pack (c.addTlvs xs) >>= parse) = .ok { c with tlvs := ts ++ xs ++ [e] } := by
  obtain ⟨m, p, word, rfl⟩ := parse_ok_iff.mp accepted
  have consumed := take_wireSize word
  rw [encodeTlvs_terminated, ← List.append_assoc] at consumed
  have packetSize : m.2.last.getPacketSize = m.2.last.encode.length := by
    rw [m.2.last.length_encode, m.2.last.toNat_getLength]
    rfl
  have size : wireSize m.cmdu = (m.1.1 ++ encodeTlvs m.2.body).length + m.2.last.encode.length := by
    rw [← length_messageCode, messageCode_enc, encodeTlvs_terminated, ← List.append_assoc, List.length_append]
  have front : wireSize m.cmdu - m.2.last.getPacketSize = (m.1.1 ++ encodeTlvs m.2.body).length := by omega
  have before : b.take (m.1.1 ++ encodeTlvs m.2.body).length = m.1.1 ++ encodeTlvs m.2.body := by
    have frontBytes := congrArg (List.take (m.1.1 ++ encodeTlvs m.2.body).length) consumed
    rwa [List.take_take, Nat.min_eq_left (Nat.le.intro size.symm), List.take_left] at frontBytes
  have terminator : (b.take (wireSize m.cmdu)).drop (m.1.1 ++ encodeTlvs m.2.body).length = m.2.last.encode := by
    rw [consumed, List.drop_left]
  have cleanXs : Clean Tlv.isEnd xs := clean_iff.mpr others
  refine ⟨m.2.body, m.2.last, rfl, Tlv.isEnd_iff.mp m.2.isStop, ?_, ?_, ?_⟩
  · rw [front, terminator]
  · rw [pack_eq, packBytes_addTlvs, front, before, terminator]
  · rw [pack_parse, addTlvs_cmdu]
    congr 2
    rw [closeTlvs, close_stop m.2.isStop]
    exact cut_split (m.2.clean.append cleanXs) m.2.isStop []

/-- A WSC TLV added to a received discovery message. -/
theorem pack_addTlvs_received_discovery :
    (pack (((Cmdu.new 0 1).addTlv emptyEnd).addTlvs [⟨TlvTypes.wsc, [1], by decide⟩]) >>= parse) =
      .ok ⟨0, 1, 0x80, 0, [⟨TlvTypes.wsc, [1], by decide⟩, emptyEnd]⟩ := by
  have accepted : parse [9, 9, 0, 0, 0, 1, 0, 0x80, 0, 0, 0, 0xEE] = .ok ((Cmdu.new 0 1).addTlv emptyEnd) := by
    decide +kernel
  obtain ⟨ts, e, split, -, -, -, run⟩ := pack_addTlvs_received accepted [⟨TlvTypes.wsc, [1], by decide⟩] (by decide)
  have one : ts = [] ∧ e = emptyEnd := by
    rw [show ((Cmdu.new 0 1).addTlv emptyEnd).getTlvs = [] ++ [emptyEnd] from rfl] at split
    obtain ⟨rfl, last⟩ := List.append_inj' split rfl
    exact ⟨rfl, (List.cons.inj last).1.symm⟩
  rw [run, one.1, one.2]
  rfl

end Ieee1905.Wire
