import Ieee1905.Wire.RoundTrip

/-!
# Cut packets and padding

A message marks its own end. Cut inside it, a buffer is refused; behind it, nothing is
looked at. A packet whose terminator is its last TLV is one message from end to end.
-/

namespace Ieee1905.Wire

open Codec MessageSerializer MessageParser

theorem parse_take_throws {b p : List UInt8} {m : Message} (word : messageCode.Begins b m p) {cut : ℕ}
    (inside : cut < wireSize m.cmdu) : ThrowsRuntimeError (parse (b.take cut)) := by
  rw [← length_messageCode] at inside
  exact parse_throws fun m' p' => word.not_begins_take inside m' p'

theorem parse_take_append {b p : List UInt8} {m : Message} (word : messageCode.Begins b m p) (padding : List UInt8) :
    parse (b.take (wireSize m.cmdu) ++ padding) = .ok m.cmdu := by
  rw [← length_messageCode]
  exact parse_message (word.take_append padding)

theorem wireSize_le {b p : List UInt8} {m : Message} (word : messageCode.Begins b m p) : wireSize m.cmdu ≤ b.length := by
  have size := word.length
  rw [length_messageCode] at size
  omega

/-- A packet with its terminator in last position only is a message and nothing else. -/
theorem packBytes_word {c : Cmdu} (lastOnly : TerminatorLastOnly c) :
    ∃ t : Terminated Tlv.isEnd, closeTlvs c.tlvs = t.toList ∧
      messageCode.Begins (packBytes c) (packedHeader c, t) [] := by
  have front : Clean Tlv.isEnd c.tlvs.dropLast := lastOnly
  obtain ⟨t, whole⟩ := close_terminated isEnd_emptyEnd front
  refine ⟨t, whole, ?_⟩
  rw [PrefixCode.Begins, messageCode_enc, packBytes, closeTlvs, whole, List.append_nil]
  rfl

/-- Such a packet is refused as soon as a byte is missing. -/
theorem packBytes_take_throws {c : Cmdu} (lastOnly : TerminatorLastOnly c) {cut : ℕ}
    (inside : cut < (packBytes c).length) : ThrowsRuntimeError (parse ((packBytes c).take cut)) := by
  obtain ⟨t, -, word⟩ := packBytes_word lastOnly
  have size := word.length
  rw [length_messageCode, List.length_nil, Nat.add_zero] at size
  apply parse_take_throws word
  omega

/-- **Truncation is detected and padding does not matter**, for every accepted buffer and
for every packet whose terminator is in last position only. -/
theorem parse_truncation :
    (∀ b c, parse b = .ok c → wireSize c ≤ b.length ∧
      (∀ m < wireSize c, ThrowsRuntimeError (parse (b.take m))) ∧
      ∀ p, parse (b.take (wireSize c) ++ p) = parse b) ∧
    (∀ c bytes, TerminatorLastOnly c → pack c = .ok bytes →
      (∀ m < bytes.length, ThrowsRuntimeError (parse (bytes.take m))) ∧
      ∀ p, parse (bytes ++ p) = parse bytes) := by
  constructor
  · intro b c accepted
    obtain ⟨m, p, word, rfl⟩ := parse_ok_iff.mp accepted
    refine ⟨wireSize_le word, fun cut inside => parse_take_throws word inside, fun padding => ?_⟩
    rw [parse_take_append word, accepted]
  · intro c bytes lastOnly packed
    rw [pack_eq] at packed
    obtain rfl := Except.ok.inj packed
    refine ⟨fun cut inside => packBytes_take_throws lastOnly inside, fun padding => ?_⟩
    rw [parse_packBytes_append, parse_packBytes]

/-- A received discovery message with padding behind it, and a discovery packet that is sent. -/
theorem parse_truncation_discovery :
    wireSize ((Cmdu.new 0 1).addTlv emptyEnd) = 11 ∧
    ThrowsRuntimeError (parse ([9, 9, 0, 0, 0, 1, 0, 0x80, 0, 0, 0, 0xEE].take 10)) ∧
    parse ([9, 9, 0, 0, 0, 1, 0, 0x80, 0, 0, 0, 0xEE].take 11 ++ [1, 2, 3]) = .ok ((Cmdu.new 0 1).addTlv emptyEnd) ∧
    ThrowsRuntimeError (parse ([0, 0, 0, 0, 0, 1, 0, 0x80, 0, 0, 0].take 10)) ∧
    parse ([0, 0, 0, 0, 0, 1, 0, 0x80, 0, 0, 0] ++ [7]) = .ok ((Cmdu.new 0 1).addTlv emptyEnd) := by
  have accepted : parse [9, 9, 0, 0, 0, 1, 0, 0x80, 0, 0, 0, 0xEE] = .ok ((Cmdu.new 0 1).addTlv emptyEnd) := by
    decide +kernel
  have packed : pack (Cmdu.new 0 1) = .ok [0, 0, 0, 0, 0, 1, 0, 0x80, 0, 0, 0] := by decide +kernel
  have sent : parse [0, 0, 0, 0, 0, 1, 0, 0x80, 0, 0, 0] = .ok ((Cmdu.new 0 1).addTlv emptyEnd) := by decide +kernel
  obtain ⟨-, cut, padded⟩ := parse_truncation.1 _ _ accepted
  obtain ⟨cutSent, paddedSent⟩ := parse_truncation.2 (Cmdu.new 0 1) _ (by decide) packed
  refine ⟨by decide +kernel, cut 10 (by decide +kernel), ?_, cutSent 10 (by decide), ?_⟩
  · exact (padded [1, 2, 3]).trans accepted
  · exact (paddedSent [7]).trans sent

end Ieee1905.Wire
