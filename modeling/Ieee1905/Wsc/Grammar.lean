import Ieee1905.Wsc.RoundTrip

/-!
# `ParseAttributes` against the grammar in plain bytes

`Concatenates` spells out what raw data the parsing constructor takes: attributes back to
back and nothing left over. A string is such a concatenation in at most one way, and the
constructor decides whether it is one, without a read outside of it.
-/

namespace Ieee1905.Wsc

open Codec Machine Std WscMessage

/-- `raw` is the attributes `as` back to back: a big-endian type, a big-endian length and that
many bytes each. -/
structure Concatenates (raw : List UInt8) (as : List (UInt16 × List UInt8)) : Prop where
  bytes : raw = as.flatMap fun a => be16 a.1 ++ be16 (UInt16.ofNat a.2.length) ++ a.2
  lengths : ∀ a ∈ as, a.2.length ≤ 65535

theorem concatenates_encAll (as : List Attribute) : Concatenates (attributeCode.encAll as) (as.map Subtype.val) where
  bytes := by
    rw [List.flatMap_map]
    rfl
  lengths := by
    intro a member
    obtain ⟨b, -, rfl⟩ := List.mem_map.mp member
    exact b.2

theorem Concatenates.exists_attributes {raw : List UInt8} {as : List (UInt16 × List UInt8)} (c : Concatenates raw as) :
    ∃ bs : List Attribute, as = bs.map Subtype.val ∧ raw = attributeCode.encAll bs := by
  have values : (as.attachWith (fun a => Fits a.2) c.lengths).map Subtype.val = as := List.attachWith_map_subtype_val _
  refine ⟨as.attachWith (fun a => Fits a.2) c.lengths, values.symm, ?_⟩
  have whole := (concatenates_encAll (as.attachWith (fun a => Fits a.2) c.lengths)).bytes
  rw [values] at whole
  exact c.bytes.trans whole.symm

theorem attribute_ne_nil (a : Attribute) : attributeCode.enc a ≠ [] := by
  apply List.ne_nil_of_length_pos
  have := four_le_attribute a
  omega

theorem Concatenates.unique {raw : List UInt8} {as bs : List (UInt16 × List UInt8)} (c : Concatenates raw as)
    (c' : Concatenates raw bs) : as = bs := by
  obtain ⟨xs, rfl, split⟩ := c.exists_attributes
  obtain ⟨ys, rfl, split'⟩ := c'.exists_attributes
  rw [attributeCode.encAll_injective attribute_ne_nil (split.symm.trans split')]

/-! ## The constructor -/

/-- The message that holds the last value of each type. -/
def lastValues (as : List (UInt16 × List UInt8)) : WscMessage := ⟨(∅ : AttributeMap).insertMany as⟩

theorem ofRaw_concatenates {raw : List UInt8} {as : List (UInt16 × List UInt8)} (c : Concatenates raw as) :
    ofRaw raw = .ok (lastValues as) := by
  obtain ⟨bs, rfl, rfl⟩ := c.exists_attributes
  exact ofRaw_encAll bs

theorem exists_concatenates {raw : List UInt8} {m : WscMessage} (accepted : ofRaw raw = .ok m) :
    ∃ as, Concatenates raw as := by
  obtain ⟨as, rfl, -⟩ := ofRaw_ok_iff.mp accepted
  exact ⟨_, concatenates_encAll as⟩

theorem ofRaw_refuses {raw : List UInt8} (noSplit : ¬ ∃ as, Concatenates raw as) : ThrowsRuntimeError (ofRaw raw) := by
  apply ofRaw_throws
  rintro as rfl
  exact noSplit ⟨_, concatenates_encAll as⟩

/-- What is read back under a type. -/
theorem getAttributeValue_lastValues (as : List (UInt16 × List UInt8)) (type : UInt16) :
    (lastValues as).getAttributeValue type = (lastWrite type as).getD [] := by
  have entry := getElem?_insertMany (∅ : AttributeMap) as type
  rw [ExtTreeMap.getElem?_empty, Option.or_none] at entry
  rw [getAttributeValue, lastValues, entry]
  cases lastWrite type as <;> rfl

theorem ofRaw_ok_or_throws (raw : List UInt8) : (∃ m, ofRaw raw = .ok m) ∨ ThrowsRuntimeError (ofRaw raw) := by
  by_cases split : ∃ as, Concatenates raw as
  · obtain ⟨as, c⟩ := split
    exact .inl ⟨_, ofRaw_concatenates c⟩
  · exact .inr (ofRaw_refuses split)

/-- **`ParseAttributes` accepts exactly the sequences of whole attributes**, keeps the last
value of each type, throws `std::runtime_error` on everything else, reads nothing outside
its input and ends behind as many whole attributes as fit it. -/
theorem ofRaw_grammar (raw : List UInt8) :
    ((∃ m, ofRaw raw = .ok m) ↔ ∃ as, Concatenates raw as) ∧
    (∀ as m, Concatenates raw as → ofRaw raw = .ok m →
      ∀ type, m.getAttributeValue type = (lastWrite type as).getD []) ∧
    ((¬ ∃ as, Concatenates raw as) → ThrowsRuntimeError (ofRaw raw)) ∧
    (∀ offset, ofRaw raw ≠ .error (.outOfBounds offset)) ∧
    (∀ k flow, Iterates (beforeEnd raw) (readAttribute raw) (0, ∅) k flow →
      flow.state.1 ≤ raw.length ∧ k ≤ raw.length / 4) ∧
    Ends (beforeEnd raw) (readAttribute raw) (0, ∅)
      (whileLoop .exhausted (beforeEnd raw) (readAttribute raw) (raw.length + 1) (0, ∅)) := by
  refine ⟨⟨?_, ?_⟩, ?_, ofRaw_refuses, ?_, ?_, ?_⟩
  · rintro ⟨m, accepted⟩
    exact exists_concatenates accepted
  · rintro ⟨as, c⟩
    exact ⟨_, ofRaw_concatenates c⟩
  · intro as m c accepted type
    rw [ofRaw_concatenates c] at accepted
    obtain rfl := Except.ok.inj accepted
    exact getAttributeValue_lastValues as type
  · intro offset outside
    obtain ⟨what, same⟩ := Fault.isRuntimeError_of_thrown (ofRaw_ok_or_throws raw) outside
    cases same
  · intro k flow run
    exact iterates_bounds (reads_readAttribute raw) (by decide) four_le_attribute (At.start raw) run
  · exact whileLoop_records_end (reads_readAttribute raw) (by decide) four_le_attribute (At.start raw) _
      (length_div_four_lt raw)

end Ieee1905.Wsc
