import Ieee1905.Codec.Announced
import Ieee1905.Codec.LastWrite
import Ieee1905.Machine.Records
import Ieee1905.Model.Wsc

/-!
# What `ParseAttributes` accepts

An attribute on the wire is a big-endian type, a big-endian length and that many bytes:
a prefix code over entries whose value fits its length field. The attribute loop takes
one word an iteration (`reads_readAttribute`), so raw data is accepted exactly when it is
a sequence of attributes, and the map holds what each type was given last.
-/

namespace Ieee1905.Wsc

open Codec Machine Std WscMessage

/-- An entry of the map as it goes on the wire. -/
abbrev Attribute := Announced UInt16

/-- Type, length, value. -/
def encodePair (pair : UInt16 × List UInt8) : List UInt8 :=
  be16 pair.1 ++ be16 (UInt16.ofNat pair.2.length) ++ pair.2

theorem length_encodePair (pair : UInt16 × List UInt8) : (encodePair pair).length = 4 + pair.2.length := by
  simp only [encodePair, List.length_append, length_be16]

def attributeCode : PrefixCode Attribute UInt8 := be16Code.announced

theorem attributeCode_enc (a : Attribute) : attributeCode.enc a = encodePair a.1 := rfl

theorem four_le_attribute (a : Attribute) : 4 ≤ (attributeCode.enc a).length := by
  rw [attributeCode_enc, length_encodePair]
  omega

/-! ## One iteration -/

/-- `m_attributes[attr_type] = value`. -/
def assign (attributes : AttributeMap) (a : Attribute) : AttributeMap := attributes.insert a.1.1 a.1.2

theorem readAttribute_encode {raw rest : List UInt8} {ptr : ℕ} {a : Attribute}
    (ahead : At raw ptr (attributeCode.enc a ++ rest)) (attributes : AttributeMap) :
    readAttribute raw (ptr, attributes) =
      .ok (.next (ptr + (attributeCode.enc a).length, assign attributes a)) := by
  obtain ⟨⟨type, value⟩, fits⟩ := a
  have len : (UInt16.ofNat value.length).toNat = value.length := toNat_ofNat_of_le fits
  have behind := length_encodePair (type, value)
  have typeAt : At raw ptr (hiByte type :: loByte type :: hiByte (UInt16.ofNat value.length) ::
      loByte (UInt16.ofNat value.length) :: (value ++ rest)) := ahead
  have lengthAt := typeAt.step.step
  have valueAt := lengthAt.step.step
  have size := valueAt.length
  rw [List.length_append] at size
  have headerFits : ¬ raw.length - ptr < 4 := by omega
  have valueFits : ¬ raw.length - (ptr + 2 + 2) < (UInt16.ofNat value.length).toNat := by omega
  have read := valueAt.copy_eq Fault.outOfBounds
  rw [← len] at read
  simp only [readAttribute, if_neg headerFits, readUint16Be, typeAt.nextBe16_eq, lengthAt.nextBe16_eq, bind,
    Except.bind, pure, Except.pure, ofBytes_hiByte_loByte, if_neg valueFits, read]
  rw [attributeCode_enc, behind, len, Nat.add_assoc ptr 2 2, Nat.add_assoc ptr 4]
  rfl

/-- Two bytes of type and a length that the bytes behind them can satisfy make an attribute. -/
theorem exists_attribute (t0 t1 : UInt8) {l0 l1 : UInt8} {rest : List UInt8} (enough : (ofBytes l0 l1).toNat ≤ rest.length) :
    ∃ a rest', t0 :: t1 :: l0 :: l1 :: rest = attributeCode.enc a ++ rest' := by
  obtain ⟨a, rest', split⟩ := be16Code.exists_announced (ofBytes t0 t1) enough
  have type : be16Code.enc (ofBytes t0 t1) = [t0, t1] := by simp [be16Code, be16]
  rw [type] at split
  exact ⟨a, rest', split⟩

theorem readAttribute_refuses {raw rest : List UInt8} {ptr : ℕ} (ahead : At raw ptr rest) (attributes : AttributeMap)
    (noWord : ∀ a rest', rest ≠ attributeCode.enc a ++ rest') :
    ThrowsRuntimeError (readAttribute raw (ptr, attributes)) := by
  have size := ahead.length
  match rest, ahead, size, noWord with
  | [], _, size, _ | [_], _, size, _ | [_, _], _, size, _ | [_, _, _], _, size, _ =>
    -- the header is cut off
    have short : raw.length - ptr < 4 := by
      simp only [size, List.length_cons, List.length_nil]
      omega
    refine ⟨"Incomplete WSC Attribute header in WscMessage.", ?_⟩
    simp only [readAttribute, if_pos short]
    rfl
  | t0 :: t1 :: l0 :: l1 :: rest, ahead, size, noWord =>
    have short : rest.length < (ofBytes l0 l1).toNat := by
      by_contra enough
      obtain ⟨a, rest', split⟩ := exists_attribute t0 t1 (Nat.le_of_not_lt enough)
      exact noWord a rest' split
    have lengthAt := ahead.step.step
    have valueAt := lengthAt.step.step.length
    have headerFits : ¬ raw.length - ptr < 4 := by omega
    have valueShort : raw.length - (ptr + 2 + 2) < (ofBytes l0 l1).toNat := by omega
    refine ⟨"WSC Attribute value truncated.", ?_⟩
    simp only [readAttribute, if_neg headerFits, readUint16Be, ahead.nextBe16_eq, lengthAt.nextBe16_eq, bind,
      Except.bind, if_pos valueShort]
    rfl

/-- The loop body meets the contract of a record reader; no attribute ends the loop. -/
theorem reads_readAttribute (raw : List UInt8) :
    ReadsRecord attributeCode (fun _ => false) assign Fault.IsRuntimeError raw (readAttribute raw) where
  word attributes ahead := readAttribute_encode ahead attributes
  other attributes ahead _ noWord := by
    obtain ⟨what, throws⟩ := readAttribute_refuses ahead attributes noWord
    exact ⟨_, ⟨what, rfl⟩, throws⟩

/-! ## The whole loop -/

/-- The message that a sequence of attributes leaves behind. -/
def ofAttributes (as : List Attribute) : WscMessage := ⟨(∅ : AttributeMap).insertMany (as.map Subtype.val)⟩

theorem foldl_assign (as : List Attribute) (attributes : AttributeMap) :
    as.foldl assign attributes = attributes.insertMany (as.map Subtype.val) := by
  induction as generalizing attributes with
  | nil => exact ExtTreeMap.insertMany_nil.symm
  | cons a as ih =>
    rw [List.foldl_cons, ih, List.map_cons]
    exact ExtTreeMap.insertMany_cons.symm

theorem length_div_four_lt (raw : List UInt8) : raw.length / 4 < raw.length + 1 := by omega

theorem ofRaw_encAll (as : List Attribute) : ofRaw (attributeCode.encAll as) = .ok (ofAttributes as) := by
  have run := whileLoop_exhausts Fault.exhausted (reads_readAttribute _) (by decide) four_le_attribute
    (fun _ _ => rfl) (∅ : AttributeMap) (At.start _) (length_div_four_lt (attributeCode.encAll as))
  rw [foldl_assign] at run
  simp only [ofRaw, parseAttributes, run]
  rfl

theorem ofRaw_throws {raw : List UInt8} (noWords : ∀ as, raw ≠ attributeCode.encAll as) :
    ThrowsRuntimeError (ofRaw raw) := by
  have outcome := whileLoop_sound Fault.exhausted (reads_readAttribute raw) (by decide)
    four_le_attribute (∅ : AttributeMap) (At.start raw) (length_div_four_lt raw)
  cases run : whileLoop Fault.exhausted (beforeEnd raw) (readAttribute raw) (raw.length + 1) (0, ∅) with
  | ok s =>
    rw [run] at outcome
    rcases outcome with ⟨t, -, -⟩ | ⟨as, -, split, -⟩
    · cases t.isStop
    · exact (noWords as split).elim
  | error e =>
    rw [run] at outcome
    obtain ⟨what, rfl⟩ := outcome
    refine ⟨what, ?_⟩
    simp only [ofRaw, parseAttributes, run]
    rfl

/-- **What the parsing constructor accepts**: attributes back to back, the last one of each
type wins. -/
theorem ofRaw_ok_iff {raw : List UInt8} {m : WscMessage} :
    ofRaw raw = .ok m ↔ ∃ as, raw = attributeCode.encAll as ∧ m = ofAttributes as := by
  constructor
  · intro accepted
    by_cases words : ∃ as, raw = attributeCode.encAll as
    · obtain ⟨as, rfl⟩ := words
      rw [ofRaw_encAll] at accepted
      exact ⟨as, rfl, (Except.ok.inj accepted).symm⟩
    · obtain ⟨what, throws⟩ := ofRaw_throws fun as split => words ⟨as, split⟩
      rw [throws] at accepted
      cases accepted
  · rintro ⟨as, rfl, rfl⟩
    exact ofRaw_encAll as

end Ieee1905.Wsc
