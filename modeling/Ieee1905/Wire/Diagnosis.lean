import Ieee1905.Wire.Grammar

/-!
# Which error `Parse` reports

The TLVs behind the header divide in one way into whole TLVs and an ending, and `Parse` names
the ending: a terminator, no byte, less than a TLV header, or a TLV header that announces more
than is left. `ParsesTo` is that table in plain bytes; `parse_iff_parsesTo` says that it is what
the code computes. A packet cut in transit shows in the table where it was cut
(`parse_take_diagnosis`).
-/

namespace Ieee1905.Wire

open Codec Machine MessageParser

/-- `b` is eight header bytes `h`, TLVs `ts` of types other than END_OF_MESSAGE and then `tail`. -/
structure Behind (b h : List UInt8) (ts : List Tlv) (tail : List UInt8) : Prop where
  bytes : b = h ++ encodeTlvs ts ++ tail
  header : h.length = 8
  payload : ∀ t ∈ ts, t.type ≠ 0

/-- The outcome of `Parse`, by what stands behind the last whole TLV. -/
inductive ParsesTo (b : List UInt8) : Except Fault Cmdu → Prop where
  | headerCut (short : b.length < 8) :
      ParsesTo b (.error (.runtimeError "Buffer size is smaller than the minimum CMDU header size."))
  | message {h : List UInt8} {ts : List Tlv} {e : Tlv} {p : List UInt8} {c : Cmdu} (d : Decomposes b h ts e p)
      (reads : ReadsAs b (ts ++ [e]) c) : ParsesTo b (.ok c)
  | unterminated {h : List UInt8} {ts : List Tlv} (split : Behind b h ts []) :
      ParsesTo b (.error (.runtimeError "CMDU does not terminate with END_OF_MESSAGE TLV."))
  | tlvHeaderCut {h : List UInt8} {ts : List Tlv} {tail : List UInt8} (split : Behind b h ts tail) (more : 0 < tail.length)
      (short : tail.length < 3) : ParsesTo b (.error (.runtimeError "Incomplete TLV header found at end of buffer."))
  | tlvValueCut {h : List UInt8} {ts : List Tlv} {type : TlvType} {len : TlvLength} {rest : List UInt8}
      (split : Behind b h ts (type :: be16 len ++ rest)) (short : rest.length < len.toNat) :
      ParsesTo b (.error (.runtimeError "Buffer ended prematurely while reading TLV value."))

/-! ## Bytes that are no TLV -/

/-- What the loop body throws in front of `tail`. -/
def tlvFault (tail : List UInt8) : Fault :=
  if tail.length < 3 then .runtimeError "Incomplete TLV header found at end of buffer."
  else .runtimeError "Buffer ended prematurely while reading TLV value."

theorem readTlv_broken {buf tail : List UInt8} {ptr : ℕ} (ahead : At buf ptr tail) (broken : Broken tlvCode tail) (c : Cmdu) :
    readTlv buf (ptr, c) = .error (tlvFault tail) := by
  have size := ahead.length
  match tail, ahead, size, broken with
  | [], _, _, broken => exact absurd rfl broken.more
  | [_], _, size, _ | [_, _], _, size, _ =>
    have short : buf.length - ptr < Tlv.tlvHeaderSize := by
      simp only [Tlv.tlvHeaderSize, size, List.length_cons, List.length_nil]
      omega
    simp only [readTlv, if_pos short]
    rfl
  | type :: hi :: lo :: rest, ahead, size, broken =>
    have announced : rest.length < (ofBytes hi lo).toNat := by
      by_contra enough
      obtain ⟨tlv, p, split⟩ := exists_encode type (Nat.le_of_not_lt enough)
      exact broken.noWord tlv p split
    have valueAt := ahead.step.step.step.length
    have headerFits : ¬ buf.length - ptr < Tlv.tlvHeaderSize := by
      simp only [Tlv.tlvHeaderSize]
      omega
    have valueShort : buf.length - (ptr + 1 + 2) < (ofBytes hi lo).toNat := by omega
    have long : ¬ (type :: hi :: lo :: rest).length < 3 := by
      simp only [List.length_cons]
      omega
    rw [tlvFault, if_neg long]
    simp only [readTlv, if_neg headerFits, readUint8, ahead.next_eq, readUint16, ahead.step.nextBe16_eq, bind,
      Except.bind, if_pos valueShort]
    rfl

/-- Bytes are no TLV where they are too few for its header or for the value it announces. -/
theorem broken_tlv_iff {tail : List UInt8} :
    Broken tlvCode tail ↔ 0 < tail.length ∧ tail.length < 3 ∨
      ∃ type len rest, tail = type :: be16 len ++ rest ∧ rest.length < len.toNat := by
  constructor
  · intro broken
    match tail, broken with
    | [], broken => exact absurd rfl broken.more
    | [_], _ | [_, _], _ => exact .inl (by simp)
    | type :: hi :: lo :: rest, broken =>
      refine .inr ⟨type, ofBytes hi lo, rest, by simp [be16], ?_⟩
      by_contra enough
      obtain ⟨tlv, p, split⟩ := exists_encode type (Nat.le_of_not_lt enough)
      exact broken.noWord tlv p split
  · rintro (⟨more, short⟩ | ⟨type, len, rest, rfl, short⟩)
    · refine ⟨List.ne_nil_of_length_pos more, ?_⟩
      rintro tlv p rfl
      have long := three_le_encode tlv
      rw [List.length_append] at short
      omega
    · refine ⟨by simp, ?_⟩
      intro tlv p split
      rw [tlvCode_enc] at split
      simp only [Tlv.encode, be16, List.cons_append, List.nil_append, List.cons.injEq] at split
      obtain ⟨-, hi, lo, behind⟩ := split
      have length : len = tlv.getLength := by
        rw [← ofBytes_hiByte_loByte len, hi, lo, ofBytes_hiByte_loByte]
      have announced := tlv.toNat_getLength
      rw [length, behind, List.length_append] at short
      omega

/-! ## Behind the header -/

section Behind

variable {b h : List UInt8} {ts : List Tlv} {tail : List UInt8}

theorem Behind.at (split : Behind b h ts tail) : At b 8 (encodeTlvs ts ++ tail) := by
  apply at_header ⟨h, split.header⟩
  rw [← List.append_assoc]
  exact split.bytes

/-- TLVs up to the end of the buffer, and no terminator. -/
theorem Behind.parse_nil (split : Behind b h ts []) :
    parse b = .error (.runtimeError "CMDU does not terminate with END_OF_MESSAGE TLV.") := by
  let t : Terminated Tlv.isEnd := ⟨[], emptyEnd, Clean.nil, rfl⟩
  have clean : Clean Tlv.isEnd ts := clean_iff.mpr split.payload
  have start := split.at
  rw [List.append_nil] at start
  have run : readTlvs b (8, { Message.cmdu (⟨h, split.header⟩, t) with tlvs := [] }) = .ok (b.length, _) :=
    whileLoop_exhausts Fault.exhausted (reads_readTlv b) (by decide) three_le_encode clean _ start (fuel_enough start)
  have collected : ts.foldl Cmdu.addTlv { Message.cmdu (⟨h, split.header⟩, t) with tlvs := [] } =
      { Message.cmdu (⟨h, split.header⟩, t) with tlvs := ts } := addTlvs_clean rfl clean
  have missing := lacksEndOfMessage_clean clean
  have bytes := split.bytes
  rw [List.append_assoc] at bytes
  rw [parse_header ⟨h, split.header⟩ bytes t, run, collected]
  simp only [bind, Except.bind, Cmdu.getTlvs, missing]
  rfl

/-- TLVs and then bytes that are none. -/
theorem Behind.parse_broken (split : Behind b h ts tail) (broken : Broken tlvCode tail) : parse b = .error (tlvFault tail) := by
  let t : Terminated Tlv.isEnd := ⟨[], emptyEnd, Clean.nil, rfl⟩
  have clean : Clean Tlv.isEnd ts := clean_iff.mpr split.payload
  have start := split.at
  have thrown := readTlv_broken start.skip broken (ts.foldl Cmdu.addTlv { Message.cmdu (⟨h, split.header⟩, t) with tlvs := [] })
  have run : readTlvs b (8, { Message.cmdu (⟨h, split.header⟩, t) with tlvs := [] }) = .error (tlvFault tail) :=
    whileLoop_broken Fault.exhausted (reads_readTlv b) (by decide) three_le_encode clean broken _ start (fuel_enough start)
      thrown
  have bytes := split.bytes
  rw [List.append_assoc] at bytes
  rw [parse_header ⟨h, split.header⟩ bytes t, run]
  rfl

end Behind

theorem encode_ne_nil (tlv : Tlv) : tlvCode.enc tlv ≠ [] := by
  apply List.ne_nil_of_length_pos
  have := three_le_encode tlv
  omega

theorem behind_of_divides {h rest : List UInt8} (size : h.length = 8) {ts : List Tlv} {ending : Ending Tlv UInt8}
    (d : Divides tlvCode Tlv.isEnd rest ts ending) : Behind (h ++ rest) h ts (ending.bytes tlvCode) where
  bytes := by
    rw [d.split, List.append_assoc]
    rfl
  header := size
  payload := clean_iff.mp d.clean

/-! ## The table -/

/-- Each line of the table is what the code does. -/
theorem ParsesTo.parse_eq {b : List UInt8} {r : Except Fault Cmdu} (line : ParsesTo b r) : parse b = r := by
  cases line with
  | headerCut short =>
    have cut : b.length < Cmdu.cmduHeaderSize := short
    simp only [parse, if_pos cut]
    rfl
  | message d reads => rw [parse_message d.begins, reads.unique d.readsAs]
  | unterminated split => exact split.parse_nil
  | tlvHeaderCut split more short =>
    rw [split.parse_broken (broken_tlv_iff.mpr (.inl ⟨more, short⟩)), tlvFault, if_pos short]
  | @tlvValueCut h ts type len rest split short =>
    have long : ¬ (type :: be16 len ++ rest).length < 3 := by
      simp only [List.length_append, List.length_cons, length_be16]
      omega
    rw [split.parse_broken (broken_tlv_iff.mpr (.inr ⟨_, _, _, rfl, short⟩)), tlvFault, if_neg long]

/-- Every buffer has its line. -/
theorem exists_parsesTo (b : List UInt8) : ∃ r, ParsesTo b r := by
  rcases Nat.lt_or_ge b.length 8 with short | long
  · exact ⟨_, .headerCut short⟩
  · have size : (b.take 8).length = 8 := by
      rw [List.length_take]
      omega
    obtain ⟨ts, ending, d⟩ := exists_divides encode_ne_nil Tlv.isEnd (b.drop 8)
    have split := behind_of_divides size d
    rw [List.take_append_drop] at split
    cases ending with
    | done => exact ⟨_, .unterminated split⟩
    | sentinel e p =>
      have whole : Decomposes b (b.take 8) ts e p := by
        refine ⟨?_, size, split.payload, Tlv.isEnd_iff.mp d.valid⟩
        rw [List.append_assoc]
        exact split.bytes
      exact ⟨_, .message whole whole.readsAs⟩
    | broken tail =>
      have broken : Broken tlvCode tail := d.valid
      rcases broken_tlv_iff.mp broken with ⟨more, short⟩ | ⟨type, len, rest, rfl, short⟩
      · exact ⟨_, .tlvHeaderCut split more short⟩
      · exact ⟨_, .tlvValueCut split short⟩

theorem parsesTo_parse (b : List UInt8) : ParsesTo b (parse b) := by
  obtain ⟨r, line⟩ := exists_parsesTo b
  rw [line.parse_eq]
  exact line

/-- **`Parse` computes the table**: on every buffer, accepted or not, it returns the message or
throws the error of exactly the line that the buffer falls under. -/
theorem parse_iff_parsesTo (b : List UInt8) (r : Except Fault Cmdu) : parse b = r ↔ ParsesTo b r := by
  constructor
  · rintro rfl
    exact parsesTo_parse b
  · exact ParsesTo.parse_eq

/-! ## Where a packet was cut -/

/-- The error for a packet cut `k` bytes into a TLV. -/
def cutError (k : ℕ) : String :=
  if k = 0 then "CMDU does not terminate with END_OF_MESSAGE TLV."
  else if k < 3 then "Incomplete TLV header found at end of buffer."
  else "Buffer ended prematurely while reading TLV value."

theorem parse_cut {h : List UInt8} (size : h.length = 8) {pre : List Tlv} (clean : Clean Tlv.isEnd pre) {t : Tlv} {k : ℕ}
    (inside : k < t.encode.length) (rest : List UInt8) :
    parse ((h ++ (encodeTlvs pre ++ (t.encode ++ rest))).take (8 + (encodeTlvs pre).length + k)) =
      .error (.runtimeError (cutError k)) := by
  have d := divides_take (C := tlvCode) clean inside rest
  have front : (h ++ (encodeTlvs pre ++ (t.encode ++ rest))).take (8 + (encodeTlvs pre).length + k) =
      h ++ (tlvCode.encAll pre ++ (tlvCode.enc t ++ rest)).take ((tlvCode.encAll pre).length + k) := by
    rw [Nat.add_assoc, ← size, List.take_length_add_append]
    rfl
  have split := behind_of_divides size d
  rw [front]
  rcases Nat.eq_zero_or_pos k with rfl | some
  · exact split.parse_nil
  · have apart : k ≠ 0 := Nat.pos_iff_ne_zero.mp some
    have length : (t.encode.take k).length = k := by
      rw [List.length_take]
      omega
    rw [if_neg apart] at split
    have thrown : tlvFault (t.encode.take k) = .runtimeError (cutError k) := by
      rw [tlvFault, cutError, length, if_neg apart]
      split <;> rfl
    rw [← thrown]
    exact split.parse_broken (broken_take some inside)

/-- **The error tells where a packet was cut.** Every position inside an accepted message is in
its header or some number of bytes into one of its TLVs, and that decides what `Parse` reports
of the part in front of it. -/
theorem parse_take_diagnosis {b : List UInt8} {c : Cmdu} (accepted : parse b = .ok c) :
    (∀ n < 8, parse (b.take n) =
      .error (.runtimeError "Buffer size is smaller than the minimum CMDU header size.")) ∧
    (∀ pre t post k, c.getTlvs = pre ++ t :: post → k < t.getPacketSize →
      parse (b.take (8 + (encodeTlvs pre).length + k)) = .error (.runtimeError (cutError k))) ∧
    ∀ n, 8 ≤ n → n < wireSize c → ∃ pre t post k,
      c.getTlvs = pre ++ t :: post ∧ k < t.getPacketSize ∧ n = 8 + (encodeTlvs pre).length + k := by
  obtain ⟨m, p, word, rfl⟩ := parse_ok_iff.mp accepted
  have packetSize (t : Tlv) : t.getPacketSize = t.encode.length := by
    rw [t.length_encode, t.toNat_getLength]
    rfl
  refine ⟨?_, ?_, ?_⟩
  · intro n short
    have cut : (b.take n).length < 8 := by
      rw [List.length_take]
      omega
    exact (ParsesTo.headerCut cut).parse_eq
  · intro pre t post k split inside
    rw [packetSize] at inside
    have bytes : b = m.1.1 ++ (encodeTlvs pre ++ (t.encode ++ (encodeTlvs post ++ p))) := by
      have whole : m.2.toList = pre ++ t :: post := split
      rw [PrefixCode.Begins, messageCode_enc, whole] at word
      rw [word]
      simp [encodeTlvs]
    rw [bytes]
    exact parse_cut m.1.2 (m.2.clean_front split) inside _
  · intro n behind inside
    have size := length_messageCode m
    rw [messageCode_enc, List.length_append, m.1.2] at size
    have header : Cmdu.cmduHeaderSize = 8 := rfl
    have within : n - 8 < (tlvCode.encAll m.2.toList).length := by
      show n - 8 < (encodeTlvs m.2.toList).length
      omega
    obtain ⟨pre, t, post, k, split, cut, place⟩ := exists_cut within
    have here : n - 8 = (encodeTlvs pre).length + k := place
    refine ⟨pre, t, post, k, split, ?_, ?_⟩
    · rw [packetSize]
      exact cut
    · omega

/-- A message with one TLV, cut in its header, behind it and inside its only TLV. -/
theorem parse_take_diagnosis_device :
    let b := [0, 0, 0, 0, 0, 1, 0, 0x80, 3, 0, 1, 0x11, 0, 0, 0]
    parse (b.take 7) = .error (.runtimeError "Buffer size is smaller than the minimum CMDU header size.") ∧
    parse (b.take 8) = .error (.runtimeError "CMDU does not terminate with END_OF_MESSAGE TLV.") ∧
    parse (b.take 9) = .error (.runtimeError "Incomplete TLV header found at end of buffer.") ∧
    parse (b.take 11) = .error (.runtimeError "Buffer ended prematurely while reading TLV value.") := by
  have accepted : parse [0, 0, 0, 0, 0, 1, 0, 0x80, 3, 0, 1, 0x11, 0, 0, 0] =
      .ok ⟨0, 1, 0x80, 0, [⟨TlvTypes.deviceInformationType, [0x11], by decide⟩, emptyEnd]⟩ := by decide +kernel
  obtain ⟨headerCuts, tlvCuts, -⟩ := parse_take_diagnosis accepted
  have device := tlvCuts [] ⟨TlvTypes.deviceInformationType, [0x11], by decide⟩ [emptyEnd]
  exact ⟨headerCuts 7 (by decide), device 0 rfl (by decide), device 1 rfl (by decide), device 3 rfl (by decide)⟩

end Ieee1905.Wire
