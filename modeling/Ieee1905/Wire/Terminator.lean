import Ieee1905.Wire.Canonical
import Ieee1905.Wire.Grammar

/-!
# The length of the terminator

Until its value has been read, the loop of `Parse` treats END_OF_MESSAGE like any other TLV:
nothing asks whether it announces bytes. `FirstTerminator` finds the first terminator of a
buffer whether or not its value is there, and `onlyEmptyTerminator_iff` says which buffers
are treated as if its length were checked.
-/

namespace Ieee1905.Wire

open Codec MessageParser

/-- `b` is eight header bytes `h`, TLVs `ts` of types other than END_OF_MESSAGE and the header
of a terminator that announces `len` bytes; `rest` is all that follows. -/
structure FirstTerminator (b h : List UInt8) (ts : List Tlv) (len : UInt16) (rest : List UInt8) : Prop where
  bytes : b = h ++ encodeTlvs ts ++ TlvTypes.endOfMessage :: be16 len ++ rest
  header : h.length = 8
  payload : ∀ t ∈ ts, t.type ≠ 0

/-- Only a terminator without a value is accepted, and one that announces a value is refused. -/
structure OnlyEmptyTerminator (b : List UInt8) : Prop where
  accepted : ∀ c, parse b = .ok c → ∃ e, c.getTlvs.getLast? = some e ∧ e.getType = TlvTypes.endOfMessage ∧
    e.getLength = 0 ∧ e.getValue = [] ∧ [0, 0, 0] <:+ b.take (wireSize c)
  refused : ∀ h ts len rest, FirstTerminator b h ts len rest → len ≠ 0 → ThrowsRuntimeError (parse b)

variable {b h rest : List UInt8} {ts : List Tlv} {len : UInt16}

/-- A terminator whose bytes are there completes a message. -/
theorem FirstTerminator.decomposes (first : FirstTerminator b h ts len rest) (enough : len.toNat ≤ rest.length) :
    ∃ e p, Decomposes b h ts e p ∧ e.getLength = len ∧ rest = e.value ++ p := by
  have announced : (ofBytes (hiByte len) (loByte len)).toNat ≤ rest.length := by
    rw [ofBytes_hiByte_loByte]
    exact enough
  obtain ⟨e, p, split⟩ := exists_encode TlvTypes.endOfMessage announced
  have fields := split
  simp only [Tlv.encode, be16, List.cons_append, List.nil_append, List.cons.injEq] at fields
  obtain ⟨type, hi, lo, value⟩ := fields
  have length : e.getLength = len := by
    rw [← ofBytes_hiByte_loByte e.getLength, ← hi, ← lo, ofBytes_hiByte_loByte]
  refine ⟨e, p, ⟨?_, first.header, first.payload, type.symm⟩, length, value⟩
  have behind : TlvTypes.endOfMessage :: be16 len ++ rest = e.encode ++ p := split
  rw [first.bytes, List.append_assoc, behind, List.append_assoc _ e.encode]

theorem Decomposes.firstTerminator {e : Tlv} {p : List UInt8} (d : Decomposes b h ts e p) :
    FirstTerminator b h ts e.getLength (e.value ++ p) where
  bytes := by
    have type : e.type = TlvTypes.endOfMessage := d.terminator
    rw [d.bytes, Tlv.encode, type]
    simp
  header := d.header
  payload := d.payload

/-- A terminator whose bytes are not all there is refused: with zeros for the missing ones the
buffer would be cut inside a message. -/
theorem FirstTerminator.cut_throws (first : FirstTerminator b h ts len rest) (short : rest.length < len.toNat) :
    ThrowsRuntimeError (parse b) := by
  let zeros : List UInt8 := List.replicate len.toNat 0
  have padded : FirstTerminator (b ++ zeros) h ts len (rest ++ zeros) := by
    refine ⟨?_, first.header, first.payload⟩
    rw [first.bytes, List.append_assoc _ rest]
  have enough : len.toNat ≤ (rest ++ zeros).length := by
    rw [List.length_append, List.length_replicate]
    omega
  obtain ⟨e, p, d, length, split⟩ := padded.decomposes enough
  have announced := e.toNat_getLength
  have whole := d.begins.length
  have sizes := congrArg List.length split
  rw [length_messageCode] at whole
  simp only [List.length_append, zeros, List.length_replicate] at whole sizes
  have inside : b.length < wireSize d.message.cmdu := by
    rw [length] at announced
    omega
  have refused := parse_take_throws d.begins inside
  rwa [List.take_left] at refused

/-- The bytes that an accepted buffer gives up end in its terminator. -/
theorem consumed_suffix {p : List UInt8} {m : Message} (word : messageCode.Begins b m p) :
    m.2.last.encode <:+ b.take (wireSize m.cmdu) := by
  rw [take_wireSize word, encodeTlvs_terminated, ← List.append_assoc]
  exact List.suffix_append _ _

/-- **When the length of the terminator is as good as checked**: exactly when the first
terminator, if there is one, announces nothing or more than there is. -/
theorem onlyEmptyTerminator_iff (b : List UInt8) :
    OnlyEmptyTerminator b ↔
      ∀ h ts len rest, FirstTerminator b h ts len rest → len = 0 ∨ rest.length < len.toNat := by
  constructor
  · intro only h ts len rest first
    by_contra both
    obtain ⟨announces, enough⟩ := not_or.mp both
    obtain ⟨e, p, d, -, -⟩ := first.decomposes (Nat.le_of_not_lt enough)
    obtain ⟨what, throws⟩ := only.refused h ts len rest first announces
    rw [parse_message d.begins] at throws
    cases throws
  · intro empty
    constructor
    · intro c accepted
      obtain ⟨m, p, word, rfl⟩ := parse_ok_iff.mp accepted
      have d := decomposes_of_begins word
      have announced := m.2.last.toNat_getLength
      have length : m.2.last.getLength = 0 := by
        rcases empty _ _ _ _ d.firstTerminator with none | short
        · exact none
        · rw [List.length_append] at short
          omega
      have value : m.2.last.value = [] := by
        rw [length] at announced
        exact List.length_eq_zero_iff.mp announced.symm
      have encoded : m.2.last.encode = [0, 0, 0] := by
        rw [Tlv.encode, d.terminator, length, value]
        rfl
      have consumed := consumed_suffix word
      rw [encoded] at consumed
      exact ⟨m.2.last, List.getLast?_concat, d.terminator, length, value, consumed⟩
    · intro h ts len rest first announces
      rcases empty h ts len rest first with none | short
      · exact absurd none announces
      · exact first.cut_throws short

/-- One byte behind a terminator that announces one is taken for its value. -/
theorem terminator_with_value : ¬ OnlyEmptyTerminator [0, 0, 0, 0, 0, 1, 0, 0x80, 0, 0, 1, 7] := by
  intro only
  have first : FirstTerminator [0, 0, 0, 0, 0, 1, 0, 0x80, 0, 0, 1, 7] [0, 0, 0, 0, 0, 1, 0, 0x80] [] 1 [7] :=
    ⟨rfl, rfl, fun t member => absurd member List.not_mem_nil⟩
  obtain ⟨what, throws⟩ := only.refused _ _ _ _ first (by decide)
  have accepted : parse [0, 0, 0, 0, 0, 1, 0, 0x80, 0, 0, 1, 7] =
      .ok ((Cmdu.new 0 1).addTlv ⟨TlvTypes.endOfMessage, [7], by decide⟩) := by decide +kernel
  rw [accepted] at throws
  cases throws

end Ieee1905.Wire
