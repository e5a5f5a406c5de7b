import Ieee1905.Wire.Packing
import Ieee1905.Wire.Parsing

/-!
# The closed form of `AddTlv`

`AddTlv` looks at the last TLV only. Over a whole history that keeps every TLV, in the order
of the calls, but for the first END_OF_MESSAGE, which moves to the end and stays there.
-/

namespace Ieee1905.Wire

open Codec MessageSerializer

theorem addTlvs_new (type : MessageType) (id : MessageId) (flags : MessageFlags) (fragmentId : FragmentId) (ts : List Tlv) :
    (Cmdu.new type id flags fragmentId).addTlvs ts =
      { Cmdu.new type id flags fragmentId with tlvs := stopLast Tlv.isEnd ts } := by
  rw [addTlvs_eq]
  congr 1
  exact insertAll_nil_eq ts

/-- A CMDU that ends in a terminator is packed as it stands. -/
theorem pack_terminated {c : Cmdu} {e : Tlv} (last : c.getTlvs.getLast? = some e) (isEnd : e.isEnd = true) :
    appendEndOfMessage c = false ∧ pack c = .ok (headerBytes c ++ encodeTlvs c.getTlvs) := by
  have closed : appendEndOfMessage c = false := by
    have test : lacksEndOfMessage c.getTlvs = !e.isEnd := by
      rw [lacksEndOfMessage_eq, endsInStop, last]
    rw [appendEndOfMessage, test, isEnd]
    rfl
  refine ⟨closed, ?_⟩
  rw [pack_eq, packBytes, encodeTlvs_closeTlvs, closed]
  simp [Cmdu.getTlvs]

section New

variable (type : MessageType) (id : MessageId) (flags : MessageFlags) (fragmentId : FragmentId) {ts : List Tlv}

/-- Every type but the terminator's is found where it was added first. -/
theorem findTlv_addTlvs (ts : List Tlv) {t : TlvType} (other : t ≠ TlvTypes.endOfMessage) :
    ((Cmdu.new type id flags fragmentId).addTlvs ts).findTlv t = ts.find? fun tlv => tlv.getType == t := by
  rw [addTlvs_new]
  apply find?_stopLast
  intro tlv isEnd
  rw [Tlv.isEnd_iff.mp isEnd]
  exact beq_eq_false_iff_ne.mpr other.symm

/-- The terminator that was added first is last, whatever is added later. -/
theorem getLast?_addTlvs {e : Tlv} (found : ts.find? Tlv.isEnd = some e) (more : List Tlv) :
    (((Cmdu.new type id flags fragmentId).addTlvs ts).addTlvs more).getTlvs.getLast? = some e := by
  have further : ((Cmdu.new type id flags fragmentId).addTlvs ts).addTlvs more =
      (Cmdu.new type id flags fragmentId).addTlvs (ts ++ more) := List.foldl_append.symm
  rw [further, addTlvs_new]
  exact getLast?_stopLast found more

end New

/-- **The closed form of `AddTlv`** on a new CMDU, with what follows from it: no TLV is dropped
or doubled, the payload keeps its order, `FindTlv` finds the first TLV added, and a terminator
that was added stays last, so that `Pack` appends none. -/
theorem addTlvs_closedForm (type : MessageType) (id : MessageId) (flags : MessageFlags) (fragmentId : FragmentId)
    (ts : List Tlv) :
    let c := (Cmdu.new type id flags fragmentId).addTlvs ts
    ((∀ t ∈ ts, t.getType ≠ TlvTypes.endOfMessage) → c.getTlvs = ts) ∧
    (∀ pre e post, ts = pre ++ e :: post → (∀ t ∈ pre, t.getType ≠ TlvTypes.endOfMessage) →
      e.getType = TlvTypes.endOfMessage → c.getTlvs = pre ++ post ++ [e]) ∧
    c.getTlvs.Perm ts ∧
    c.getTlvs.filter (fun t => t.getType != TlvTypes.endOfMessage) =
      ts.filter (fun t => t.getType != TlvTypes.endOfMessage) ∧
    (∀ t, t ≠ TlvTypes.endOfMessage → c.findTlv t = ts.find? fun tlv => tlv.getType == t) ∧
    (∀ t ∈ ts, t.getType = TlvTypes.endOfMessage → ∀ more, ∃ e,
      (c.addTlvs more).getTlvs.getLast? = some e ∧ e.getType = TlvTypes.endOfMessage ∧
      appendEndOfMessage (c.addTlvs more) = false ∧
      pack (c.addTlvs more) = .ok (headerBytes (c.addTlvs more) ++ encodeTlvs (c.addTlvs more).getTlvs)) := by
  intro c
  have tlvs : c.getTlvs = stopLast Tlv.isEnd ts := congrArg Cmdu.getTlvs (addTlvs_new type id flags fragmentId ts)
  refine ⟨?_, ?_, ?_, ?_, ?_, ?_⟩
  · intro plain
    rw [tlvs, stopLast_clean (clean_iff.mpr plain)]
  · rintro pre e post rfl plain isEnd
    rw [tlvs, stopLast_split (clean_iff.mpr plain) (Tlv.isEnd_iff.mpr isEnd)]
  · rw [tlvs]
    exact perm_stopLast ts
  · rw [tlvs]
    exact payload_stopLast ts
  · intro t other
    exact findTlv_addTlvs type id flags fragmentId ts other
  · intro t member isEnd more
    obtain ⟨e, found⟩ : ∃ e, ts.find? Tlv.isEnd = some e :=
      Option.isSome_iff_exists.mp (List.find?_isSome.mpr ⟨t, member, Tlv.isEnd_iff.mpr isEnd⟩)
    have stop := List.find?_some found
    have last := getLast?_addTlvs type id flags fragmentId found more
    obtain ⟨closed, packed⟩ := pack_terminated last stop
    exact ⟨e, last, Tlv.isEnd_iff.mp stop, closed, packed⟩

end Ieee1905.Wire
