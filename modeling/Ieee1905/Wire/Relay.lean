import Ieee1905.Codec.Extension
import Ieee1905.Wire.Canonical

/-!
# Relaying a message

A device on the way parses what it received, adds TLVs of its own, packs the message again and
sends it on over a medium that may pad it. After any number of such hops the last receiver has
the header and the TLVs of the origin, then those that each hop added in front of its first
END_OF_MESSAGE, in the order of the hops (`relayAll_parse`). The abstract hop is the extension
of a terminated list; the code refines it hop by hop (`relay_message`).
-/

namespace Ieee1905.Wire

open Codec MessageSerializer MessageParser

/-- What one device adds, and what the medium behind it appends. -/
structure Hop where
  added : List Tlv
  padding : List UInt8

/-- Parse, add, pack, send. -/
def relay (b : List UInt8) (hop : Hop) : Except Fault (List UInt8) := do
  let cmdu ← parse b
  let packet ← pack (cmdu.addTlvs hop.added)
  return packet ++ hop.padding

def relayAll (b : List UInt8) (hops : List Hop) : Except Fault (List UInt8) := hops.foldlM relay b

/-- The message behind a hop: the same header, the TLVs extended. -/
def Message.extend (m : Message) (xs : List Tlv) : Message := (m.1, m.2.extend xs)

theorem parse_addTlvs_cmdu (m : Message) (xs : List Tlv) (padding : List UInt8) :
    parse (packBytes (m.cmdu.addTlvs xs) ++ padding) = .ok (Message.extend m xs).cmdu := by
  have tlvs : cut Tlv.isEnd (closeTlvs (insertAll Tlv.isEnd m.2.toList xs)) = (m.2.extend xs).toList :=
    m.2.toList_extend xs emptyEnd
  rw [parse_packBytes_append, addTlvs_eq]
  exact congrArg (fun tlvs => Except.ok { m.cmdu with tlvs := tlvs }) tlvs

/-- **One hop** takes every buffer of a message to a buffer of the extended message. -/
theorem relay_message {b : List UInt8} {m : Message} (accepted : parse b = .ok m.cmdu) (hop : Hop) :
    ∃ b', relay b hop = .ok b' ∧ parse b' = .ok (Message.extend m hop.added).cmdu := by
  refine ⟨packBytes (m.cmdu.addTlvs hop.added) ++ hop.padding, ?_, parse_addTlvs_cmdu m hop.added hop.padding⟩
  simp only [relay, accepted, pack_eq, bind, Except.bind, pure, Except.pure]

/-- The hops refine a run of extensions. -/
theorem relayAll_message {b : List UInt8} {m : Message} (accepted : parse b = .ok m.cmdu) (hops : List Hop) :
    ∃ b', relayAll b hops = .ok b' ∧
      parse b' = .ok (Message.cmdu (m.1, (hops.map Hop.added).foldl Terminated.extend m.2)) := by
  induction hops generalizing b m with
  | nil => exact ⟨b, rfl, accepted⟩
  | cons hop hops ih =>
    obtain ⟨next, sent, received⟩ := relay_message accepted hop
    obtain ⟨last, rest, read⟩ := ih received
    refine ⟨last, ?_, read⟩
    rw [relayAll, List.foldlM_cons, sent]
    exact rest

/-- **Relaying keeps what was there.** No hop fails. The last receiver reads the header of the
origin, its TLVs in front of the terminator, and then of every hop, in order, what it added in
front of its first END_OF_MESSAGE; the terminator is the first one of the last hop that added
one, or the origin's. Where no hop adds one, everything arrives; and a search finds what the
earliest device put there. -/
theorem relayAll_parse {b : List UInt8} {c : Cmdu} (accepted : parse b = .ok c) (hops : List Hop) :
    ∃ ts e b' d, c.getTlvs = ts ++ [e] ∧ relayAll b hops = .ok b' ∧ parse b' = .ok d ∧
      d = { c with tlvs := d.getTlvs } ∧
      d.getTlvs = ts ++ hops.flatMap (fun hop => hop.added.takeWhile fun t => !t.isEnd) ++
        [(hops.findSomeRev? fun hop => hop.added.find? Tlv.isEnd).getD e] ∧
      ((∀ hop ∈ hops, ∀ t ∈ hop.added, t.getType ≠ TlvTypes.endOfMessage) →
        d.getTlvs = ts ++ hops.flatMap Hop.added ++ [e]) ∧
      ∀ type, type ≠ TlvTypes.endOfMessage →
        d.findTlv type = (c.findTlv type).or
          (hops.findSome? fun hop => (hop.added.takeWhile fun t => !t.isEnd).find? fun t => t.getType == type) := by
  obtain ⟨m, p, word, rfl⟩ := parse_ok_iff.mp accepted
  obtain ⟨b', sent, read⟩ := relayAll_message accepted hops
  refine ⟨m.2.body, m.2.last, b', _, rfl, sent, read, rfl, ?_, ?_, ?_⟩
  · show ((hops.map Hop.added).foldl Terminated.extend m.2).toList = _
    rw [Terminated.toList, Terminated.body_foldl_extend, Terminated.last_foldl_extend, List.flatMap_map, findSomeRev?_map]
    rfl
  · intro plain
    have clean : ∀ xs ∈ hops.map Hop.added, Clean Tlv.isEnd xs := by
      intro xs member
      obtain ⟨hop, here, rfl⟩ := List.mem_map.mp member
      exact clean_iff.mpr (plain hop here)
    show ((hops.map Hop.added).foldl Terminated.extend m.2).toList = _
    rw [m.2.toList_foldl_extend_clean clean, List.flatMap_def]
  · intro type different
    show ((hops.map Hop.added).foldl Terminated.extend m.2).toList.find? _ = (m.2.toList.find? _).or _
    rw [Terminated.find?_foldl_extend (Tlv.getType_of_isEnd different), List.findSome?_map]
    rfl

/-- A device TLV added on the first hop, an END_OF_MESSAGE and a WSC TLV on the second, one byte
of padding each: the last receiver does not see the WSC TLV. -/
theorem relayAll_parse_device :
    ∃ b' d, relayAll [0, 0, 0, 0, 0, 1, 0, 0x80, 0, 0, 0]
        [⟨[⟨TlvTypes.deviceInformationType, [0x11], by decide⟩], [7]⟩, ⟨[emptyEnd, ⟨TlvTypes.wsc, [], by decide⟩], [7]⟩] = .ok b' ∧
      parse b' = .ok d ∧ d.getTlvs = [⟨TlvTypes.deviceInformationType, [0x11], by decide⟩, emptyEnd] := by
  have accepted : parse [0, 0, 0, 0, 0, 1, 0, 0x80, 0, 0, 0] = .ok ((Cmdu.new 0 1).addTlv emptyEnd) := by decide +kernel
  obtain ⟨ts, e, b', d, split, sent, read, -, tlvs, -, -⟩ := relayAll_parse accepted
    [⟨[⟨TlvTypes.deviceInformationType, [0x11], by decide⟩], [7]⟩, ⟨[emptyEnd, ⟨TlvTypes.wsc, [], by decide⟩], [7]⟩]
  have none : ts = [] := by
    have size := congrArg List.length split
    rw [List.length_append] at size
    exact List.length_eq_zero_iff.mp (Nat.add_right_cancel size).symm
  refine ⟨b', d, sent, read, ?_⟩
  rw [tlvs, none]
  rfl

end Ieee1905.Wire
