import Ieee1905.Wire.Kernel

/-!
# What a CMDU can be

A CMDU is constructed or parsed and then only added to. So one that has a terminator ends in
one, and nothing else holds of all of them: every list that has none, or ends in one, can be
reached (`held_iff`). For such CMDUs the test that `Pack` makes of the last TLV is a test of all
of them.
-/

namespace Ieee1905.Wire

open Codec MessageParser MessageSerializer

/-- The CMDUs that a program can hold. -/
inductive Held : Cmdu → Prop where
  | constructed (type : MessageType) (id : MessageId) (flags : MessageFlags) (fragmentId : FragmentId) :
      Held (Cmdu.new type id flags fragmentId)
  | parsed {b : List UInt8} {c : Cmdu} (accepted : parse b = .ok c) : Held c
  | added {c : Cmdu} (held : Held c) (tlv : Tlv) : Held (c.addTlv tlv)

/-- What holds of all of them. -/
inductive Shape : List Tlv → Prop where
  | unterminated {ts : List Tlv} (clean : Clean Tlv.isEnd ts) : Shape ts
  | terminated (ts : List Tlv) {e : Tlv} (isEnd : e.isEnd = true) : Shape (ts ++ [e])

/-- **One call** keeps the shape. -/
theorem Shape.insert {ts : List Tlv} (shape : Shape ts) (tlv : Tlv) : Shape (insertBeforeStop Tlv.isEnd ts tlv) := by
  cases shape with
  | unterminated clean =>
    rw [insertBeforeStop_clean clean]
    cases isEnd : tlv.isEnd with
    | false => exact .unterminated (clean.append (Clean.singleton isEnd))
    | true => exact .terminated ts isEnd
  | terminated ts isEnd =>
    rw [insertBeforeStop_stop isEnd]
    exact .terminated _ isEnd

theorem Held.shape {c : Cmdu} (held : Held c) : Shape c.tlvs := by
  induction held with
  | constructed => exact .unterminated Clean.nil
  | parsed accepted =>
    obtain ⟨m, p, -, rfl⟩ := parse_ok_iff.mp accepted
    exact .terminated m.2.body m.2.isStop
  | added held tlv ih =>
    rw [addTlv_tlvs]
    exact ih.insert tlv

theorem Held.addTlvs {c : Cmdu} (held : Held c) (ts : List Tlv) : Held (c.addTlvs ts) := by
  induction ts generalizing c with
  | nil => exact held
  | cons tlv ts ih => exact ih (held.added tlv)

/-- **Every list of that shape** comes of calls on a new CMDU: its last terminator first, and then
the other TLVs. -/
theorem Shape.exists_addTlvs {tlvs : List Tlv} (shape : Shape tlvs) (type : MessageType) (id : MessageId)
    (flags : MessageFlags) (fragmentId : FragmentId) :
    ∃ ts, (Cmdu.new type id flags fragmentId).addTlvs ts = ⟨type, id, flags, fragmentId, tlvs⟩ := by
  cases shape with
  | unterminated clean => exact ⟨tlvs, addTlvs_clean rfl clean⟩
  | @terminated ts e isEnd =>
    have last : insertAll Tlv.isEnd [] (e :: ts) = ts ++ [e] := insertAll_stop isEnd [] ts
    refine ⟨e :: ts, ?_⟩
    rw [addTlvs_eq]
    exact congrArg (Cmdu.mk type id flags fragmentId) last

theorem shape_iff {ts : List Tlv} :
    Shape ts ↔ (∀ t ∈ ts, t.getType ≠ TlvTypes.endOfMessage) ∨ ∃ front e, ts = front ++ [e] ∧ e.getType = TlvTypes.endOfMessage := by
  constructor
  · intro shape
    cases shape with
    | unterminated clean => exact .inl (clean_iff.mp clean)
    | @terminated front e isEnd => exact .inr ⟨front, e, rfl, Tlv.isEnd_iff.mp isEnd⟩
  · rintro (plain | ⟨front, e, rfl, isEnd⟩)
    · exact .unterminated (clean_iff.mpr plain)
    · exact .terminated front (Tlv.isEnd_iff.mpr isEnd)

/-- `Pack` looks at the last TLV only, and that is enough. -/
theorem Shape.lacksEndOfMessage_iff {ts : List Tlv} (shape : Shape ts) :
    lacksEndOfMessage ts = true ↔ ∀ t ∈ ts, t.getType ≠ TlvTypes.endOfMessage := by
  cases shape with
  | unterminated clean => exact iff_of_true (lacksEndOfMessage_clean clean) (clean_iff.mp clean)
  | @terminated front e isEnd =>
    rw [lacksEndOfMessage_eq, endsInStop_concat, isEnd]
    refine iff_of_false Bool.false_ne_true fun plain => ?_
    exact plain e (List.mem_append_right front (List.mem_singleton_self e)) (Tlv.isEnd_iff.mp isEnd)

/-- Parsed CMDUs are those with one terminator, the last TLV. -/
theorem parsed_iff {c : Cmdu} :
    (∃ b, parse b = .ok c) ↔ ∃ ts e, c.getTlvs = ts ++ [e] ∧ (∀ t ∈ ts, t.getType ≠ TlvTypes.endOfMessage) ∧
      e.getType = TlvTypes.endOfMessage := by
  constructor
  · rintro ⟨b, accepted⟩
    obtain ⟨m, p, -, rfl⟩ := parse_ok_iff.mp accepted
    exact ⟨m.2.body, m.2.last, rfl, clean_iff.mp m.2.clean, Tlv.isEnd_iff.mp m.2.isStop⟩
  · rintro ⟨ts, e, split, plain, isEnd⟩
    have clean := clean_iff.mpr plain
    have stop := Tlv.isEnd_iff.mpr isEnd
    have tlvs : c.tlvs = ts ++ [e] := split
    have kept : cut Tlv.isEnd (closeTlvs c.tlvs) = c.tlvs := by
      rw [tlvs, closeTlvs, close_stop stop]
      exact cut_split clean stop []
    refine ⟨packBytes c, ?_⟩
    rw [parse_packBytes, kept]

/-- **What a CMDU can be**, over every run of constructor, `Parse` and `AddTlv`: any TLVs, as long
as they end in a terminator if there is one; and all of that can be built by `AddTlv` alone.
`Pack` appends a terminator exactly where there is none at all. A CMDU can have come from a
packet if and only if its terminator is last and the only one, and if and only if it survives
being sent. -/
theorem held_iff (c : Cmdu) :
    (Held c ↔ (∀ t ∈ c.getTlvs, t.getType ≠ TlvTypes.endOfMessage) ∨
      ∃ ts e, c.getTlvs = ts ++ [e] ∧ e.getType = TlvTypes.endOfMessage) ∧
    (Held c ↔ ∃ ts, (Cmdu.new c.getType c.getId c.getFlags c.getFragmentId).addTlvs ts = c) ∧
    (Held c → (appendEndOfMessage c = true ↔ ∀ t ∈ c.getTlvs, t.getType ≠ TlvTypes.endOfMessage)) ∧
    ((∃ b, parse b = .ok c) ↔ ∃ ts e, c.getTlvs = ts ++ [e] ∧ (∀ t ∈ ts, t.getType ≠ TlvTypes.endOfMessage) ∧
      e.getType = TlvTypes.endOfMessage) ∧
    ((∃ b, parse b = .ok c) ↔ (pack c >>= parse) = .ok c) := by
  have built (shape : Shape c.tlvs) : ∃ ts, (Cmdu.new c.getType c.getId c.getFlags c.getFragmentId).addTlvs ts = c :=
    shape.exists_addTlvs c.type c.id c.flags c.fragmentId
  have held (shape : Shape c.tlvs) : Held c := by
    obtain ⟨ts, same⟩ := built shape
    rw [← same]
    exact (Held.constructed ..).addTlvs ts
  refine ⟨?_, ?_, fun held => held.shape.lacksEndOfMessage_iff, parsed_iff, ?_⟩
  · rw [← shape_iff]
    exact ⟨Held.shape, held⟩
  · constructor
    · intro reached
      exact built reached.shape
    · rintro ⟨ts, same⟩
      rw [← same]
      exact (Held.constructed ..).addTlvs ts
  · constructor
    · rintro ⟨b, accepted⟩
      obtain ⟨m, p, -, rfl⟩ := parse_ok_iff.mp accepted
      rw [pack_eq]
      exact parse_packBytes_cmdu m
    · intro survives
      rw [pack_eq] at survives
      exact ⟨packBytes c, survives⟩

end Ieee1905.Wire
