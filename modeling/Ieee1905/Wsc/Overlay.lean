import Ieee1905.Wsc.Diagnosis
import Ieee1905.Wsc.Names
import Ieee1905.Wsc.Normal

/-!
# Raw data behind raw data

Concatenating accepted raw data lays one message over the other: the parsing constructor is a
homomorphism from concatenation to the overlay of maps (`ofRaw_append`), errors included. Runs
of `AddAttribute` act the same way, so whatever can be built by calls can be received, and the
other way round (`reachable_presentations`).
-/

namespace Ieee1905.Wsc

open Codec Std WscMessage

/-- The attributes of `upper` on top of those of `m`. -/
def overlay (m upper : WscMessage) : WscMessage := ⟨m.attributes ∪ upper.attributes⟩

theorem lastValues_append (as bs : List (UInt16 × List UInt8)) :
    lastValues (as ++ bs) = overlay (lastValues as) (lastValues bs) := by
  rw [lastValues, insertMany_append, insertMany_eq_union]
  rfl

/-- Raw data behind accepted raw data is read as if it stood alone, and laid over what was read
before. -/
theorem ofRaw_append {front : List UInt8} {m : WscMessage} (accepted : ofRaw front = .ok m) (back : List UInt8) :
    ofRaw (front ++ back) = (ofRaw back).map (overlay m) := by
  obtain ⟨as, rfl, rfl⟩ := ofRaw_ok_iff.mp accepted
  have d : Divides attributeCode never (attributeCode.encAll as) as .done :=
    ⟨fun _ _ => rfl, (List.append_nil _).symm, trivial⟩
  obtain ⟨bs, ending, d'⟩ := exists_divides_attributes back
  cases ending with
  | done =>
    have words : back = attributeCode.encAll bs := d'.split.trans (List.append_nil _)
    rw [words, ← PrefixCode.encAll_append, ofRaw_encAll, ofRaw_encAll]
    have both : (as ++ bs).map Subtype.val = as.map Subtype.val ++ bs.map Subtype.val := List.map_append
    rw [ofAttributes, both]
    exact congrArg Except.ok (lastValues_append _ _)
  | sentinel e rest => cases d'.valid
  | broken tail =>
    rw [ofRaw_broken (d.append d'), ofRaw_broken d']
    rfl

/-! ## Calls and bytes -/

theorem fits_acceptedCalls (calls : List (UInt16 × List UInt8)) : ∀ call ∈ acceptedCalls calls, call.2.length ≤ 65535 := by
  intro call member
  exact of_decide_eq_true (List.mem_filter.mp member).2

/-- The bytes of the accepted calls. -/
def callBytes (calls : List (UInt16 × List UInt8)) : List UInt8 := (acceptedCalls calls).flatMap encodePair

theorem ofRaw_callBytes (calls : List (UInt16 × List UInt8)) :
    ofRaw (callBytes calls) = .ok (WscMessage.empty.addAttributes calls) := by
  rw [empty_addAttributes]
  exact ofRaw_concatenates ⟨rfl, fits_acceptedCalls calls⟩

/-- A run of calls on any message lays the message of the calls over it. -/
theorem addAttributes_eq_overlay (m : WscMessage) (calls : List (UInt16 × List UInt8)) :
    m.addAttributes calls = overlay m (WscMessage.empty.addAttributes calls) := by
  have stored := addAttributes_attributes m calls
  rw [insertMany_eq_union] at stored
  rw [empty_addAttributes]
  exact congrArg WscMessage.mk stored

/-- **The parsing constructor is a homomorphism.** Behind accepted raw data further data is read
as if it stood alone and laid over what was read before, and its error is the error of the
whole; `AddAttribute` calls on the message lead where their encoding behind the data leads. -/
theorem ofRaw_homomorphism {front : List UInt8} {m : WscMessage} (accepted : ofRaw front = .ok m) :
    (∀ back, ofRaw (front ++ back) = (ofRaw back).map (overlay m)) ∧
    ∀ calls, ofRaw (front ++ callBytes calls) = .ok (m.addAttributes calls) := by
  constructor
  · intro back
    exact ofRaw_append accepted back
  · intro calls
    rw [ofRaw_append accepted, ofRaw_callBytes, addAttributes_eq_overlay m calls]
    rfl

/-- An SSID behind a version, a broken header behind it, and a call on it. -/
theorem ofRaw_homomorphism_version :
    ofRaw ([0x10, 0x4A, 0, 1, 0x10] ++ [0x10, 0x45, 0, 1, 0x68]) =
      .ok (overlay (lastValues [(0x104A, [0x10])]) (lastValues [(0x1045, [0x68])])) ∧
    ofRaw ([0x10, 0x4A, 0, 1, 0x10] ++ [0x10, 0x45]) =
      .error (.runtimeError "Incomplete WSC Attribute header in WscMessage.") ∧
    ofRaw ([0x10, 0x4A, 0, 1, 0x10] ++ callBytes [(0x1045, [0x68])]) =
      .ok ((lastValues [(0x104A, [0x10])]).addAttributes [(0x1045, [0x68])]) := by
  have accepted : ofRaw [0x10, 0x4A, 0, 1, 0x10] = .ok (lastValues [(0x104A, [0x10])]) := ofRaw_concatenates ⟨rfl, by decide⟩
  have ssid : ofRaw [0x10, 0x45, 0, 1, 0x68] = .ok (lastValues [(0x1045, [0x68])]) := ofRaw_concatenates ⟨rfl, by decide⟩
  have broken : ofRaw [0x10, 0x45] = .error (.runtimeError "Incomplete WSC Attribute header in WscMessage.") := by
    have split : Behind [0x10, 0x45] [] [0x10, 0x45] := ⟨rfl, by decide⟩
    exact (RebuildsTo.headerCut split (by decide) (by decide)).ofRaw_eq
  obtain ⟨behind, called⟩ := ofRaw_homomorphism accepted
  refine ⟨?_, ?_, called _⟩
  · rw [behind, ssid]
    rfl
  · rw [behind, broken]
    rfl

/-! ## Three ways to present a message -/

theorem acceptedCalls_eq_self {calls : List (UInt16 × List UInt8)} (fits : ∀ call ∈ calls, call.2.length ≤ 65535) :
    acceptedCalls calls = calls := by
  apply List.filter_eq_self.mpr
  intro call member
  exact decide_eq_true (fits call member)

/-- Sorted raw data is what its message packs to. -/
theorem sorted_eq_packedBytes {raw : List UInt8} {as : List (UInt16 × List UInt8)} (split : Concatenates raw as)
    (sorted : Increasing as) {m : WscMessage} (accepted : ofRaw raw = .ok m) : raw = packedBytes m := by
  rw [ofRaw_concatenates split] at accepted
  obtain rfl := Except.ok.inj accepted
  have entries : (lastValues as).attributes.toList = as := (toList_insertMany_eq_iff as).mpr sorted
  rw [packedBytes, entries]
  exact split.bytes

/-- **The messages that can be built, received and written are the same.** A message that the
constructors and `AddAttribute` lead to is one that calls on a new message lead to, and one that
some raw data is parsed to; and exactly one such data is sorted by type: the one that it packs
to. -/
theorem reachable_presentations (m : WscMessage) :
    (Reachable m ↔ ∃ calls, WscMessage.empty.addAttributes calls = m) ∧
    (Reachable m ↔ ∃ raw, ofRaw raw = .ok m) ∧
    (Reachable m ↔ ∃ raw as, Concatenates raw as ∧ Increasing as ∧ ofRaw raw = .ok m ∧ m.packAttributes = .ok raw) ∧
    ∀ raw as, Concatenates raw as → Increasing as → ofRaw raw = .ok m → m.packAttributes = .ok raw := by
  refine ⟨⟨?_, ?_⟩, ⟨?_, ?_⟩, ⟨?_, ?_⟩, ?_⟩
  · intro reached
    have split := concatenates_packedBytes reached.fits
    have read := ofRaw_packedBytes reached.fits
    rw [ofRaw_concatenates split] at read
    refine ⟨m.attributes.toList, ?_⟩
    rw [empty_addAttributes, acceptedCalls_eq_self split.lengths]
    exact Except.ok.inj read
  · rintro ⟨calls, rfl⟩
    exact reachable_addAttributes .empty calls
  · intro reached
    exact ⟨_, ofRaw_packedBytes reached.fits⟩
  · rintro ⟨raw, accepted⟩
    exact .parsed accepted
  · intro reached
    exact ⟨_, _, concatenates_packedBytes reached.fits, increasing_toList _, ofRaw_packedBytes reached.fits,
      packAttributes_eq m⟩
  · rintro ⟨raw, as, -, -, accepted, -⟩
    exact .parsed accepted
  · intro raw as split sorted accepted
    rw [sorted_eq_packedBytes split sorted accepted]
    exact packAttributes_eq m

end Ieee1905.Wsc
