import Ieee1905.Wsc.Grammar

/-!
# Which error `ParseAttributes` reports

Raw data divides in one way into whole attributes and an ending. WSC data carries no
terminator, so the end of the data is as good as any: only a broken ending is an error, and
data that was cut between two attributes passes for shorter data (`ofRaw_take_diagnosis`).
-/

namespace Ieee1905.Wsc

open Codec Machine Std WscMessage

/-- `raw` is the attributes `as` back to back and then `tail`. -/
structure Behind (raw : List UInt8) (as : List (UInt16 × List UInt8)) (tail : List UInt8) : Prop where
  bytes : raw = as.flatMap (fun a => be16 a.1 ++ be16 (UInt16.ofNat a.2.length) ++ a.2) ++ tail
  lengths : ∀ a ∈ as, a.2.length ≤ 65535

/-- The outcome of the parsing constructor, by what stands behind the last whole attribute. -/
inductive RebuildsTo (raw : List UInt8) : Except Fault WscMessage → Prop where
  | whole {as : List (UInt16 × List UInt8)} (split : Behind raw as []) : RebuildsTo raw (.ok (lastValues as))
  | headerCut {as : List (UInt16 × List UInt8)} {tail : List UInt8} (split : Behind raw as tail) (more : 0 < tail.length)
      (short : tail.length < 4) :
      RebuildsTo raw (.error (.runtimeError "Incomplete WSC Attribute header in WscMessage."))
  | valueCut {as : List (UInt16 × List UInt8)} {type len : UInt16} {rest : List UInt8}
      (split : Behind raw as (be16 type ++ be16 len ++ rest)) (short : rest.length < len.toNat) :
      RebuildsTo raw (.error (.runtimeError "WSC Attribute value truncated."))

/-! ## Bytes that are no attribute -/

/-- What the loop body throws in front of `tail`. -/
def attributeFault (tail : List UInt8) : Fault :=
  if tail.length < 4 then .runtimeError "Incomplete WSC Attribute header in WscMessage."
  else .runtimeError "WSC Attribute value truncated."

theorem readAttribute_broken {raw tail : List UInt8} {ptr : ℕ} (ahead : At raw ptr tail) (broken : Broken attributeCode tail)
    (attributes : AttributeMap) : readAttribute raw (ptr, attributes) = .error (attributeFault tail) := by
  have size := ahead.length
  match tail, ahead, size, broken with
  | [], _, _, broken => exact absurd rfl broken.more
  | [_], _, size, _ | [_, _], _, size, _ | [_, _, _], _, size, _ =>
    have short : raw.length - ptr < 4 := by
      simp only [size, List.length_cons, List.length_nil]
      omega
    simp only [readAttribute, if_pos short]
    rfl
  | t0 :: t1 :: l0 :: l1 :: rest, ahead, size, broken =>
    have announced : rest.length < (ofBytes l0 l1).toNat := by
      by_contra enough
      obtain ⟨a, rest', split⟩ := exists_attribute t0 t1 (Nat.le_of_not_lt enough)
      exact broken.noWord a rest' split
    have lengthAt := ahead.step.step
    have valueAt := lengthAt.step.step.length
    have headerFits : ¬ raw.length - ptr < 4 := by omega
    have valueShort : raw.length - (ptr + 2 + 2) < (ofBytes l0 l1).toNat := by omega
    have long : ¬ (t0 :: t1 :: l0 :: l1 :: rest).length < 4 := by
      simp only [List.length_cons]
      omega
    rw [attributeFault, if_neg long]
    simp only [readAttribute, if_neg headerFits, readUint16Be, ahead.nextBe16_eq, lengthAt.nextBe16_eq, bind,
      Except.bind, if_pos valueShort]
    rfl

/-- Bytes are no attribute where they are too few for its header or for the value it announces. -/
theorem broken_attribute_iff {tail : List UInt8} :
    Broken attributeCode tail ↔ 0 < tail.length ∧ tail.length < 4 ∨
      ∃ type len rest, tail = be16 type ++ be16 len ++ rest ∧ rest.length < len.toNat := by
  constructor
  · intro broken
    match tail, broken with
    | [], broken => exact absurd rfl broken.more
    | [_], _ | [_, _], _ | [_, _, _], _ => exact .inl (by simp)
    | t0 :: t1 :: l0 :: l1 :: rest, broken =>
      refine .inr ⟨ofBytes t0 t1, ofBytes l0 l1, rest, by simp [be16], ?_⟩
      by_contra enough
      obtain ⟨a, rest', split⟩ := exists_attribute t0 t1 (Nat.le_of_not_lt enough)
      exact broken.noWord a rest' split
  · rintro (⟨more, short⟩ | ⟨type, len, rest, rfl, short⟩)
    · refine ⟨List.ne_nil_of_length_pos more, ?_⟩
      rintro a rest rfl
      have long := four_le_attribute a
      rw [List.length_append] at short
      omega
    · refine ⟨by simp [be16], ?_⟩
      intro a rest' split
      rw [attributeCode_enc] at split
      simp only [encodePair, be16, List.cons_append, List.nil_append, List.cons.injEq] at split
      obtain ⟨-, -, hi, lo, behind⟩ := split
      have length : len = UInt16.ofNat a.1.2.length := by
        rw [← ofBytes_hiByte_loByte len, hi, lo, ofBytes_hiByte_loByte]
      have announced : (UInt16.ofNat a.1.2.length).toNat = a.1.2.length := toNat_ofNat_of_le a.2
      rw [length, behind, List.length_append] at short
      omega

/-! ## By the ending -/

/-- No attribute is a sentinel. -/
def never (_ : Attribute) : Bool := false

theorem exists_divides_attributes (raw : List UInt8) :
    ∃ as ending, Divides attributeCode never raw as ending := exists_divides attribute_ne_nil never raw

theorem ofRaw_broken {raw tail : List UInt8} {as : List Attribute} (d : Divides attributeCode never raw as (.broken tail)) :
    ofRaw raw = .error (attributeFault tail) := by
  have broken : Broken attributeCode tail := d.valid
  have start : At raw 0 (attributeCode.encAll as ++ tail) := by
    rw [d.split]
    exact At.start _
  have enough : (attributeCode.encAll as ++ tail).length / 4 < raw.length + 1 := by
    rw [← start.ahead, List.drop_zero]
    exact length_div_four_lt raw
  have thrown := readAttribute_broken start.skip broken (as.foldl assign ∅)
  have run := whileLoop_broken Fault.exhausted (reads_readAttribute raw) (by decide) four_le_attribute d.clean broken
    (∅ : AttributeMap) start enough thrown
  simp only [ofRaw, parseAttributes, run]
  rfl

theorem behind_of_divides {raw : List UInt8} {as : List Attribute} {ending : Ending Attribute UInt8}
    (d : Divides attributeCode never raw as ending) : Behind raw (as.map Subtype.val) (ending.bytes attributeCode) where
  bytes := by
    have words := (concatenates_encAll as).bytes
    rw [d.split, words]
  lengths := (concatenates_encAll as).lengths

/-- The other way round, for a tail that is no attribute. -/
theorem Behind.divides {raw tail : List UInt8} {as : List (UInt16 × List UInt8)} (split : Behind raw as tail)
    (broken : Broken attributeCode tail) : ∃ bs, Divides attributeCode never raw bs (.broken tail) := by
  have front : Concatenates (as.flatMap fun a => be16 a.1 ++ be16 (UInt16.ofNat a.2.length) ++ a.2) as := ⟨rfl, split.lengths⟩
  obtain ⟨bs, -, words⟩ := front.exists_attributes
  refine ⟨bs, fun _ _ => rfl, ?_, broken⟩
  rw [split.bytes, words]
  rfl

/-! ## The table -/

/-- Each line of the table is what the code does. -/
theorem RebuildsTo.ofRaw_eq {raw : List UInt8} {r : Except Fault WscMessage} (line : RebuildsTo raw r) : ofRaw raw = r := by
  cases line with
  | whole split => exact ofRaw_concatenates ⟨split.bytes.trans (List.append_nil _), split.lengths⟩
  | headerCut split more short =>
    obtain ⟨bs, d⟩ := split.divides (broken_attribute_iff.mpr (.inl ⟨more, short⟩))
    rw [ofRaw_broken d, attributeFault, if_pos short]
  | @valueCut as type len rest split short =>
    obtain ⟨bs, d⟩ := split.divides (broken_attribute_iff.mpr (.inr ⟨_, _, _, rfl, short⟩))
    have long : ¬ (be16 type ++ be16 len ++ rest).length < 4 := by
      simp only [List.length_append, length_be16]
      omega
    rw [ofRaw_broken d, attributeFault, if_neg long]

/-- Every input has its line. -/
theorem exists_rebuildsTo (raw : List UInt8) : ∃ r, RebuildsTo raw r := by
  obtain ⟨as, ending, d⟩ := exists_divides_attributes raw
  have split := behind_of_divides d
  cases ending with
  | done => exact ⟨_, .whole split⟩
  | sentinel e rest => cases d.valid
  | broken tail =>
    have broken : Broken attributeCode tail := d.valid
    rcases broken_attribute_iff.mp broken with ⟨more, short⟩ | ⟨type, len, rest, rfl, short⟩
    · exact ⟨_, .headerCut split more short⟩
    · exact ⟨_, .valueCut split short⟩

/-- **The parsing constructor computes the table**: on every input it returns the last value of
each type or throws the error of exactly the line that the input falls under. -/
theorem ofRaw_iff_rebuildsTo (raw : List UInt8) (r : Except Fault WscMessage) : ofRaw raw = r ↔ RebuildsTo raw r := by
  constructor
  · rintro rfl
    obtain ⟨r, line⟩ := exists_rebuildsTo raw
    rw [line.ofRaw_eq]
    exact line
  · exact RebuildsTo.ofRaw_eq

/-! ## Where raw data was cut -/

/-- The bytes of a sequence of attributes. -/
def attributesLength (as : List (UInt16 × List UInt8)) : ℕ := (as.map fun a => 4 + a.2.length).sum

/-- What is rebuilt from the attributes `pre` and `k` bytes of the next one. -/
def cutOutcome (pre : List (UInt16 × List UInt8)) (k : ℕ) : Except Fault WscMessage :=
  if k = 0 then .ok (lastValues pre)
  else if k < 4 then .error (.runtimeError "Incomplete WSC Attribute header in WscMessage.")
  else .error (.runtimeError "WSC Attribute value truncated.")

theorem length_encAll_attributes (as : List Attribute) :
    (attributeCode.encAll as).length = attributesLength (as.map Subtype.val) := by
  rw [PrefixCode.encAll, List.length_flatMap, attributesLength, List.map_map]
  congr 1
  apply List.map_congr_left
  intro a _
  exact length_encodePair a.1

theorem ofRaw_cut (pre : List Attribute) {a : Attribute} {k : ℕ} (inside : k < (attributeCode.enc a).length)
    (rest : List UInt8) :
    ofRaw ((attributeCode.encAll pre ++ (attributeCode.enc a ++ rest)).take ((attributeCode.encAll pre).length + k)) =
      cutOutcome (pre.map Subtype.val) k := by
  have clean : Clean never pre := fun _ _ => rfl
  have d := divides_take clean inside rest
  rcases Nat.eq_zero_or_pos k with rfl | some
  · have whole : Behind _ _ [] := behind_of_divides d
    exact (RebuildsTo.whole whole).ofRaw_eq
  · have apart : k ≠ 0 := Nat.pos_iff_ne_zero.mp some
    have length : ((attributeCode.enc a).take k).length = k := by
      rw [List.length_take]
      omega
    rw [if_neg apart] at d
    rw [ofRaw_broken d, attributeFault, cutOutcome, length, if_neg apart]
    split <;> rfl

/-- **Cut WSC data is detected inside an attribute only.** Every position in a sequence of
attributes is some number of bytes into one of them: at none the part in front is accepted as
what it holds, behind some the error tells the attribute's header from its value. -/
theorem ofRaw_take_diagnosis {raw : List UInt8} {as : List (UInt16 × List UInt8)} (split : Concatenates raw as) :
    (∀ pre a post k, as = pre ++ a :: post → k < 4 + a.2.length →
      ofRaw (raw.take (attributesLength pre + k)) = cutOutcome pre k) ∧
    ∀ n < raw.length, ∃ pre a post k, as = pre ++ a :: post ∧ k < 4 + a.2.length ∧ n = attributesLength pre + k := by
  obtain ⟨bs, rfl, rfl⟩ := split.exists_attributes
  constructor
  · intro pre a post k parts inside
    obtain ⟨front, back, rfl, rfl, behind⟩ := List.map_eq_append_iff.mp parts
    obtain ⟨b, post, rfl, rfl, rfl⟩ := List.map_eq_cons_iff.mp behind
    rw [PrefixCode.encAll_append, PrefixCode.encAll_cons, ← length_encAll_attributes]
    apply ofRaw_cut
    rw [attributeCode_enc, length_encodePair]
    exact inside
  · intro n inside
    obtain ⟨pre, a, post, k, rfl, within, place⟩ := exists_cut inside
    rw [attributeCode_enc, length_encodePair] at within
    rw [length_encAll_attributes] at place
    exact ⟨pre.map Subtype.val, a.1, post.map Subtype.val, k, List.map_append, within, place⟩

/-- An SSID behind an empty attribute: cut between the two, in the second header and in its
value. -/
theorem ofRaw_take_diagnosis_ssid :
    ofRaw ([0x10, 0x04, 0, 0, 0x10, 0x45, 0, 1, 0x68].take 4) = .ok (lastValues [(0x1004, [])]) ∧
    ofRaw ([0x10, 0x04, 0, 0, 0x10, 0x45, 0, 1, 0x68].take 6) =
      .error (.runtimeError "Incomplete WSC Attribute header in WscMessage.") ∧
    ofRaw ([0x10, 0x04, 0, 0, 0x10, 0x45, 0, 1, 0x68].take 8) = .error (.runtimeError "WSC Attribute value truncated.") := by
  have split : Concatenates [0x10, 0x04, 0, 0, 0x10, 0x45, 0, 1, 0x68] [(0x1004, []), (0x1045, [0x68])] :=
    ⟨by decide, by decide⟩
  have cuts := (ofRaw_take_diagnosis split).1 [(0x1004, [])] (0x1045, [0x68]) []
  exact ⟨cuts 0 rfl (by decide), cuts 2 rfl (by decide), cuts 4 rfl (by decide)⟩

end Ieee1905.Wsc
