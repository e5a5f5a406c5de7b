import Ieee1905.Machine.Records
import Ieee1905.Model.Parser
import Ieee1905.Wire.Format

/-!
# What `Parse` accepts

One iteration of the TLV loop takes one encoded TLV from the bytes ahead or throws, which
makes the loop a reader of records that stops at a terminator (`reads_readTlv`). From the
library the loop reads a terminated sequence and nothing behind it, and where none lies
ahead it runs out of bytes or throws. Together: `Parse` accepts the words of `messageCode`
and throws `std::runtime_error` on everything else.
-/

namespace Ieee1905.Wire

open Codec Machine MessageParser

/-! ## The model's operations in the library's terms -/

theorem addTlv_tlvs (c : Cmdu) (tlv : Tlv) : (c.addTlv tlv).tlvs = insertBeforeStop Tlv.isEnd c.tlvs tlv := by
  unfold Cmdu.addTlv Cmdu.addTlvFrom insertBeforeStop endsInStop
  cases last : c.tlvs.getLast? with
  | none => simp
  | some back =>
    have test : (back.getType == TlvTypes.endOfMessage) = back.isEnd := rfl
    cases isEnd : back.isEnd with
    | false => simp only [test, isEnd, Bool.false_eq_true, if_false]
    | true => simp [test, isEnd]

theorem addTlv_eq (c : Cmdu) (tlv : Tlv) :
    c.addTlv tlv = { c with tlvs := insertBeforeStop Tlv.isEnd c.tlvs tlv } := by
  rw [← addTlv_tlvs]
  unfold Cmdu.addTlv Cmdu.addTlvFrom
  split
  · split <;> rfl
  · rfl

theorem addTlvs_eq (c : Cmdu) (tlvs : List Tlv) :
    c.addTlvs tlvs = { c with tlvs := insertAll Tlv.isEnd c.tlvs tlvs } := by
  induction tlvs generalizing c with
  | nil => rfl
  | cons tlv tlvs ih =>
    rw [Cmdu.addTlvs_cons, ih, addTlv_eq]
    rfl

/-! ## One iteration -/

/-- The bytes ahead start with a TLV: the iteration takes it. -/
theorem readTlv_encode {buf p : List UInt8} {ptr : ℕ} {tlv : Tlv} (ahead : At buf ptr (tlv.encode ++ p)) (c : Cmdu) :
    readTlv buf (ptr, c) = .ok (if tlv.isEnd then .leave (ptr + tlv.encode.length, c.addTlv tlv)
      else .next (ptr + tlv.encode.length, c.addTlv tlv)) := by
  have len := tlv.toNat_getLength
  have typeAt : At buf ptr (tlv.type :: hiByte tlv.getLength :: loByte tlv.getLength :: (tlv.value ++ p)) := ahead
  have valueAt := typeAt.step.step.step
  have size := valueAt.length
  rw [List.length_append] at size
  have headerFits : ¬ buf.length - ptr < Tlv.tlvHeaderSize := by
    simp only [Tlv.tlvHeaderSize]
    omega
  have valueFits : ¬ buf.length - (ptr + 1 + 2) < tlv.getLength.toNat := by omega
  have read := valueAt.copy_eq Fault.outOfBounds
  rw [← len] at read
  have behind : ptr + 1 + 2 + tlv.getLength.toNat = ptr + tlv.encode.length := by
    rw [tlv.length_encode]
    omega
  simp only [readTlv, if_neg headerFits, readUint8, typeAt.next_eq, readUint16, typeAt.step.nextBe16_eq, bind,
    Except.bind, pure, Except.pure, ofBytes_hiByte_loByte, if_neg valueFits, read, Tlv.new_ok tlv.fits]
  rw [show (tlv.type == TlvTypes.endOfMessage) = tlv.isEnd from rfl, behind]
  cases tlv.isEnd <;> rfl

/-- A type byte and a length that the bytes behind them can satisfy make a TLV. -/
theorem exists_encode (type : UInt8) {hi lo : UInt8} {rest : List UInt8} (enough : (ofBytes hi lo).toNat ≤ rest.length) :
    ∃ tlv p, type :: hi :: lo :: rest = Tlv.encode tlv ++ p := by
  obtain ⟨⟨⟨type', value⟩, fits⟩, p, split⟩ := byteCode.exists_announced type enough
  exact ⟨⟨type', value, fits⟩, p, split⟩

/-- Everything one iteration can do: take a TLV, or throw. -/
theorem readTlv_cases {buf rest : List UInt8} {ptr : ℕ} (ahead : At buf ptr rest) (c : Cmdu) :
    (∃ tlv p, rest = Tlv.encode tlv ++ p) ∨ ThrowsRuntimeError (readTlv buf (ptr, c)) := by
  have size := ahead.length
  match rest, ahead, size with
  | [], _, size | [_], _, size | [_, _], _, size =>
    -- the header is cut off
    have short : buf.length - ptr < Tlv.tlvHeaderSize := by
      simp only [Tlv.tlvHeaderSize, size, List.length_cons, List.length_nil]
      omega
    refine .inr ⟨"Incomplete TLV header found at end of buffer.", ?_⟩
    simp only [readTlv, if_pos short]
    rfl
  | type :: hi :: lo :: rest, ahead, size =>
    rcases Nat.lt_or_ge rest.length (ofBytes hi lo).toNat with short | enough
    · -- the value is cut off
      have valueAt := ahead.step.step.step.length
      have headerFits : ¬ buf.length - ptr < Tlv.tlvHeaderSize := by
        simp only [Tlv.tlvHeaderSize]
        omega
      have valueShort : buf.length - (ptr + 1 + 2) < (ofBytes hi lo).toNat := by omega
      refine .inr ⟨"Buffer ended prematurely while reading TLV value.", ?_⟩
      simp only [readTlv, if_neg headerFits, readUint8, ahead.next_eq, readUint16, ahead.step.nextBe16_eq, bind,
        Except.bind, if_pos valueShort]
      rfl
    · exact .inl (exists_encode type enough)

/-- The loop body meets the contract of a record reader; a terminator ends the loop. -/
theorem reads_readTlv (buf : List UInt8) :
    ReadsRecord tlvCode Tlv.isEnd Cmdu.addTlv Fault.IsRuntimeError buf (readTlv buf) where
  word c ahead := readTlv_encode ahead c
  other c ahead _ noWord := by
    rcases readTlv_cases ahead c with ⟨tlv, p, split⟩ | ⟨what, throws⟩
    · exact (noWord tlv p split).elim
    · exact ⟨_, ⟨what, rfl⟩, throws⟩

/-! ## The loop -/

theorem three_le_encode (tlv : Tlv) : 3 ≤ (tlvCode.enc tlv).length := by
  rw [tlvCode_enc, tlv.length_encode]
  omega

/-- Added to an empty CMDU, a terminated sequence and a sequence without terminator are
kept as they are. -/
theorem addTlvs_terminated {c : Cmdu} (empty : c.tlvs = []) (t : Terminated Tlv.isEnd) :
    c.addTlvs t.toList = { c with tlvs := t.toList } := by
  rw [addTlvs_eq, empty, insertAll_terminated]

theorem addTlvs_clean {c : Cmdu} (empty : c.tlvs = []) {tlvs : List Tlv} (clean : Clean Tlv.isEnd tlvs) :
    c.addTlvs tlvs = { c with tlvs := tlvs } := by
  rw [addTlvs_eq, empty, insertAll_clean Clean.nil clean, List.nil_append]

section ReadTlvs

variable {buf input : List UInt8} {ptr : ℕ} {c : Cmdu} (empty : c.tlvs = [])

theorem fuel_enough (start : At buf ptr input) : input.length / 3 < buf.length + 1 := by
  have := start.length
  omega

include empty

/-- A terminated sequence ahead is read, and the rest is never looked at. -/
theorem readTlvs_terminated (t : Terminated Tlv.isEnd) {p : List UInt8} (ahead : At buf ptr (encodeTlvs t.toList ++ p)) :
    ∃ ptr', readTlvs buf (ptr, c) = .ok (ptr', { c with tlvs := t.toList }) := by
  have run := whileLoop_terminated Fault.exhausted (reads_readTlv buf) (by decide) three_le_encode t c
    ahead (fuel_enough ahead)
  refine ⟨ptr + (tlvCode.encAll t.toList).length, ?_⟩
  rw [← addTlvs_terminated empty t]
  exact run

/-- Where no terminated sequence lies ahead, the loop runs out of bytes between two TLVs or
throws. -/
theorem readTlvs_unterminated (ahead : At buf ptr input)
    (noWord : ∀ (t : Terminated Tlv.isEnd) p, input ≠ encodeTlvs t.toList ++ p) :
    (∃ ptr' tlvs, Clean Tlv.isEnd tlvs ∧ readTlvs buf (ptr, c) = .ok (ptr', { c with tlvs := tlvs })) ∨
      ThrowsRuntimeError (readTlvs buf (ptr, c)) := by
  have outcome := whileLoop_sound Fault.exhausted (reads_readTlv buf) (by decide) three_le_encode c
    ahead (fuel_enough ahead)
  cases run : readTlvs buf (ptr, c) with
  | ok s =>
    rw [← readTlvs, run] at outcome
    rcases outcome with ⟨t, p, split⟩ | ⟨tlvs, clean, -, collected⟩
    · exact (noWord t p split).elim
    · refine .inl ⟨s.1, tlvs, clean, ?_⟩
      rw [← addTlvs_clean empty clean]
      exact congrArg (fun c' => Except.ok (s.1, c')) collected
  | error e =>
    rw [← readTlvs, run] at outcome
    obtain ⟨what, rfl⟩ := outcome
    exact .inr ⟨what, rfl⟩

end ReadTlvs

/-! ## The whole parser -/

/-- The eight header bytes, read one by one. -/
theorem readHeader_eq {b rest : List UInt8} (h : Header) (split : b = h.1 ++ rest) (t : Terminated Tlv.isEnd) :
    readHeader b 0 = .ok ({ Message.cmdu (h, t) with tlvs := [] }, 8) := by
  obtain ⟨h, size⟩ := h
  match h, size with
  | [h0, h1, h2, h3, h4, h5, h6, h7], _ =>
    have a0 : At b 0 (h0 :: h1 :: h2 :: h3 :: h4 :: h5 :: h6 :: h7 :: rest) := split ▸ At.start _
    have a1 := a0.step
    have a2 := a1.step
    have a4 := a2.step.step
    have a6 := a4.step.step
    have a7 := a6.step
    simp only [readHeader, readUint8, readUint16, a0.next_eq, a1.next_eq, a2.nextBe16_eq, a4.nextBe16_eq,
      a6.next_eq, a7.next_eq, bind, Except.bind, pure, Except.pure]
    rfl

theorem lacksEndOfMessage_terminated (t : Terminated Tlv.isEnd) : lacksEndOfMessage t.toList = false := by
  rw [lacksEndOfMessage_eq, Terminated.toList, endsInStop_concat, t.isStop]
  rfl

theorem lacksEndOfMessage_clean {tlvs : List Tlv} (clean : Clean Tlv.isEnd tlvs) : lacksEndOfMessage tlvs = true := by
  rw [lacksEndOfMessage_eq, endsInStop_clean clean]
  rfl

/-- What is left to do behind the header. -/
theorem parse_header {b rest : List UInt8} (h : Header) (split : b = h.1 ++ rest) (t : Terminated Tlv.isEnd) :
    parse b = (do
      let (_, cmdu) ← readTlvs b (8, { Message.cmdu (h, t) with tlvs := [] })
      if lacksEndOfMessage cmdu.getTlvs then
        throw (.runtimeError "CMDU does not terminate with END_OF_MESSAGE TLV.")
      return cmdu) := by
  have size := congrArg List.length split
  rw [List.length_append, h.2] at size
  have long : ¬ b.length < Cmdu.cmduHeaderSize := by omega
  simp only [parse, if_neg long, readHeader_eq h split t, bind, Except.bind]

theorem at_header {b rest : List UInt8} (h : Header) (split : b = h.1 ++ rest) : At b 8 rest := by
  have whole : At b 0 (h.1 ++ rest) := split ▸ At.start _
  have ahead := whole.skip
  rw [h.2] at ahead
  exact ahead

/-- A message in front of anything is accepted, and the rest is never looked at. -/
theorem parse_message {b p : List UInt8} {m : Message} (word : messageCode.Begins b m p) : parse b = .ok m.cmdu := by
  obtain ⟨h, t⟩ := m
  have split : b = h.1 ++ (encodeTlvs t.toList ++ p) := by
    rw [← List.append_assoc]
    exact word
  have empty : ({ Message.cmdu (h, t) with tlvs := [] } : Cmdu).tlvs = [] := rfl
  obtain ⟨ptr', run⟩ := readTlvs_terminated empty t (at_header h split)
  have closed := lacksEndOfMessage_terminated t
  rw [parse_header h split t, run]
  simp only [bind, Except.bind, Cmdu.getTlvs, closed]
  rfl

/-- Everything else is refused with `std::runtime_error`. -/
theorem parse_throws {b : List UInt8} (noWord : ∀ m p, ¬ messageCode.Begins b m p) :
    ThrowsRuntimeError (parse b) := by
  rcases Nat.lt_or_ge b.length Cmdu.cmduHeaderSize with short | long
  · exact ⟨_, by simp only [parse, if_pos short]; rfl⟩
  · let h : Header := ⟨b.take Cmdu.cmduHeaderSize, by rw [List.length_take]; omega⟩
    have split : b = h.1 ++ b.drop Cmdu.cmduHeaderSize := (List.take_append_drop _ _).symm
    let t : Terminated Tlv.isEnd := ⟨[], emptyEnd, Clean.nil, rfl⟩
    have empty : ({ Message.cmdu (h, t) with tlvs := [] } : Cmdu).tlvs = [] := rfl
    have noTlvs (t' : Terminated Tlv.isEnd) (p : List UInt8) : b.drop Cmdu.cmduHeaderSize ≠ encodeTlvs t'.toList ++ p := by
      intro found
      apply noWord (h, t') p
      rw [PrefixCode.Begins, messageCode_enc, List.append_assoc, ← found]
      exact split
    rw [parse_header h split t]
    rcases readTlvs_unterminated empty (at_header h split) noTlvs with ⟨ptr', tlvs, clean, run⟩ | ⟨what, run⟩
    · have missing := lacksEndOfMessage_clean clean
      refine ⟨"CMDU does not terminate with END_OF_MESSAGE TLV.", ?_⟩
      rw [run]
      simp only [bind, Except.bind, Cmdu.getTlvs, missing]
      rfl
    · exact ⟨what, by rw [run]; rfl⟩

/-- **What `Parse` accepts**: an input that starts with a message, read as that message. -/
theorem parse_ok_iff {b : List UInt8} {c : Cmdu} : parse b = .ok c ↔ ∃ m p, messageCode.Begins b m p ∧ c = m.cmdu := by
  constructor
  · intro accepted
    by_cases found : ∃ m p, messageCode.Begins b m p
    · obtain ⟨m, p, word⟩ := found
      refine ⟨m, p, word, ?_⟩
      rw [parse_message word] at accepted
      exact (Except.ok.inj accepted).symm
    · obtain ⟨what, throws⟩ := parse_throws fun m p word => found ⟨m, p, word⟩
      rw [throws] at accepted
      cases accepted
  · rintro ⟨m, p, word, rfl⟩
    exact parse_message word

/-- Nothing but `std::runtime_error` comes out of `Parse`. -/
theorem parse_ok_or_throws (b : List UInt8) : (∃ c, parse b = .ok c) ∨ ThrowsRuntimeError (parse b) := by
  by_cases found : ∃ m p, messageCode.Begins b m p
  · obtain ⟨m, p, word⟩ := found
    exact .inl ⟨m.cmdu, parse_message word⟩
  · exact .inr (parse_throws fun m p word => found ⟨m, p, word⟩)

end Ieee1905.Wire
