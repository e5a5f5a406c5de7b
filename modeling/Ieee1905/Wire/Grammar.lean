import Ieee1905.Wire.Parsing

/-!
# `Parse` against the grammar in plain bytes

`Decomposes` spells the grammar out as a concatenation. It is the same thing as starting
with a word of `messageCode`, so the decomposition is unique and `Parse` decides it.
-/

namespace Ieee1905.Wire

open Codec MessageParser

/-- `b` is eight header bytes `h`, TLVs `ts` of types other than END_OF_MESSAGE, a
terminator `e` and any rest `p`. -/
structure Decomposes (b h : List UInt8) (ts : List Tlv) (e : Tlv) (p : List UInt8) : Prop where
  bytes : b = h ++ encodeTlvs ts ++ e.encode ++ p
  header : h.length = 8
  payload : ∀ t ∈ ts, t.type ≠ 0
  terminator : e.type = 0

theorem Decomposes.clean {b h : List UInt8} {ts : List Tlv} {e : Tlv} {p : List UInt8}
    (d : Decomposes b h ts e p) : Clean Tlv.isEnd ts := clean_iff.mpr d.payload

/-- The message of a decomposition. -/
def Decomposes.message {b h : List UInt8} {ts : List Tlv} {e : Tlv} {p : List UInt8}
    (d : Decomposes b h ts e p) : Message :=
  (⟨h, d.header⟩, ⟨ts, e, d.clean, Tlv.isEnd_iff.mpr d.terminator⟩)

theorem Decomposes.begins {b h : List UInt8} {ts : List Tlv} {e : Tlv} {p : List UInt8}
    (d : Decomposes b h ts e p) : messageCode.Begins b d.message p := by
  rw [PrefixCode.Begins, messageCode_enc]
  refine d.bytes.trans ?_
  simp [Decomposes.message, Terminated.toList, encodeTlvs]

theorem decomposes_of_begins {b p : List UInt8} {m : Message} (word : messageCode.Begins b m p) :
    Decomposes b m.1.1 m.2.body m.2.last p where
  bytes := by
    rw [PrefixCode.Begins, messageCode_enc] at word
    rw [word]
    simp [Terminated.toList, encodeTlvs]
  header := m.1.2
  payload := clean_iff.mp m.2.clean
  terminator := Tlv.isEnd_iff.mp m.2.isStop

theorem Decomposes.unique {b h h' : List UInt8} {ts ts' : List Tlv} {e e' : Tlv} {p p' : List UInt8}
    (d : Decomposes b h ts e p) (d' : Decomposes b h' ts' e' p') : h = h' ∧ ts = ts' ∧ e = e' ∧ p = p' := by
  obtain ⟨same, rest⟩ := d.begins.unique d'.begins
  have header := congrArg (fun m : Message => m.1.1) same
  have body := congrArg (fun m : Message => m.2.body) same
  have last := congrArg (fun m : Message => m.2.last) same
  exact ⟨header, body, last, rest⟩

/-- The fields of the result, read off the buffer, and its TLVs. -/
structure ReadsAs (b : List UInt8) (tlvs : List Tlv) (c : Cmdu) : Prop where
  type : c.getType.toNat = (b.getD 2 0).toNat * 256 + (b.getD 3 0).toNat
  id : c.getId.toNat = (b.getD 4 0).toNat * 256 + (b.getD 5 0).toNat
  fragmentId : c.getFragmentId = b.getD 6 0
  flags : c.getFlags = b.getD 7 0
  tlvs : c.getTlvs = tlvs

theorem ReadsAs.unique {b : List UInt8} {tlvs : List Tlv} {c c' : Cmdu} (r : ReadsAs b tlvs c)
    (r' : ReadsAs b tlvs c') : c = c' := by
  obtain ⟨type, id, fragmentId, flags, list⟩ := r
  obtain ⟨type', id', fragmentId', flags', list'⟩ := r'
  cases c
  cases c'
  rw [Cmdu.mk.injEq]
  exact ⟨UInt16.toNat_inj.mp (type.trans type'.symm), UInt16.toNat_inj.mp (id.trans id'.symm),
    flags.trans flags'.symm, fragmentId.trans fragmentId'.symm, list.trans list'.symm⟩

theorem Decomposes.readsAs {b h : List UInt8} {ts : List Tlv} {e : Tlv} {p : List UInt8}
    (d : Decomposes b h ts e p) : ReadsAs b (ts ++ [e]) d.message.cmdu := by
  have front (i : ℕ) (inside : i < 8) : b.getD i 0 = h.getD i 0 := by
    rw [d.bytes, List.append_assoc, List.append_assoc, List.getD_append]
    rw [d.header]
    exact inside
  constructor
  · rw [front 2 (by decide), front 3 (by decide)]
    exact toNat_ofBytes _ _
  · rw [front 4 (by decide), front 5 (by decide)]
    exact toNat_ofBytes _ _
  · rw [front 6 (by decide)]
    rfl
  · rw [front 7 (by decide)]
    rfl
  · rfl

/-- **`Parse` decides the grammar**: it succeeds exactly on the buffers that decompose, in
the one way they do, with the fields at their offsets, and throws `std::runtime_error` on
every other buffer. -/
theorem parse_grammar (b : List UInt8) :
    (∀ c, parse b = .ok c ↔ ∃ h ts e p, Decomposes b h ts e p ∧ ReadsAs b (ts ++ [e]) c) ∧
    (∀ h ts e p h' ts' e' p', Decomposes b h ts e p → Decomposes b h' ts' e' p' →
      h = h' ∧ ts = ts' ∧ e = e' ∧ p = p') ∧
    ((¬ ∃ h ts e p, Decomposes b h ts e p) → ThrowsRuntimeError (parse b)) := by
  refine ⟨fun c => ⟨fun accepted => ?_, ?_⟩, ?_, ?_⟩
  · obtain ⟨m, p, word, rfl⟩ := parse_ok_iff.mp accepted
    have d := decomposes_of_begins word
    exact ⟨_, _, _, _, d, d.readsAs⟩
  · rintro ⟨h, ts, e, p, d, reads⟩
    rw [parse_message d.begins, reads.unique d.readsAs]
  · intro h ts e p h' ts' e' p' d d'
    exact d.unique d'
  · intro noWord
    exact parse_throws fun m p word => noWord ⟨_, _, _, _, decomposes_of_begins word⟩

end Ieee1905.Wire
