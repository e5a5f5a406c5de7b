import Ieee1905.Wsc.Names

/-!
# WSC messages that are passed on

A hop rebuilds the message from the value of a TLV, makes its own `AddAttribute` calls and packs
it again. A chain of hops does what one run of all the calls does on the first message, as long
as what each hop packs fits a TLV; the first one that does not fit ends the chain
(`editAll_run`).
-/

namespace Ieee1905.Wsc

open Codec Std WscMessage

/-- One hop: the value of the TLV that it sends. -/
def edit (raw : List UInt8) (calls : List (UInt16 × List UInt8)) : Except Fault (List UInt8) := do
  let m ← ofRaw raw
  match toTlv.run (m.addAttributes calls) with
  | .ok tlv _ => return tlv.getValue
  | .error e _ => throw e

def editAll (raw : List UInt8) (hops : List (List (UInt16 × List UInt8))) : Except Fault (List UInt8) := hops.foldlM edit raw

theorem addAttributes_append (m : WscMessage) (calls more : List (UInt16 × List UInt8)) :
    m.addAttributes (calls ++ more) = (m.addAttributes calls).addAttributes more :=
  List.foldl_append

/-- What a run of calls lays over what was there. -/
theorem getAttributeValue_addAttributes (m : WscMessage) (calls : List (UInt16 × List UInt8)) (type : UInt16) :
    (m.addAttributes calls).getAttributeValue type =
      (lastWrite type (acceptedCalls calls)).getD (m.getAttributeValue type) := by
  have entry := getElem?_insertMany m.attributes (acceptedCalls calls) type
  rw [← addAttributes_attributes] at entry
  rw [getAttributeValue, entry]
  cases lastWrite type (acceptedCalls calls) <;> rfl

/-! ## One hop -/

variable {raw : List UInt8} {m : WscMessage}

theorem edit_ok (accepted : ofRaw raw = .ok m) {calls : List (UInt16 × List UInt8)}
    (fits : attributesSize (m.addAttributes calls) ≤ 65535) :
    edit raw calls = .ok (packedBytes (m.addAttributes calls)) := by
  rw [← length_packedBytes_sum] at fits
  simp only [edit, accepted, bind, Except.bind, toTlv_ok fits]
  rfl

theorem edit_throws (accepted : ofRaw raw = .ok m) {calls : List (UInt16 × List UInt8)}
    (long : 65535 < attributesSize (m.addAttributes calls)) : ThrowsLengthError (edit raw calls) := by
  rw [← length_packedBytes_sum] at long
  obtain ⟨what, throws⟩ := toTlv_throws long
  refine ⟨what, ?_⟩
  simp only [edit, accepted, bind, Except.bind, throws]
  rfl

/-- What a hop sends is read as the message that it packed. -/
theorem ofRaw_edit (accepted : ofRaw raw = .ok m) (calls : List (UInt16 × List UInt8)) :
    ofRaw (packedBytes (m.addAttributes calls)) = .ok (m.addAttributes calls) :=
  ofRaw_packedBytes (reachable_addAttributes (.parsed accepted) calls).fits

/-! ## Chains -/

/-- Everything that the hops pack fits a TLV. -/
def AllFit (m : WscMessage) (hops : List (List (UInt16 × List UInt8))) : Prop :=
  ∀ k < hops.length, attributesSize (m.addAttributes (hops.take (k + 1)).flatten) ≤ 65535

theorem allFit_cons {calls : List (UInt16 × List UInt8)} {hops : List (List (UInt16 × List UInt8))} :
    AllFit m (calls :: hops) ↔ attributesSize (m.addAttributes calls) ≤ 65535 ∧ AllFit (m.addAttributes calls) hops := by
  constructor
  · intro all
    refine ⟨?_, ?_⟩
    · have first := all 0 (Nat.zero_lt_succ _)
      rwa [List.take_succ_cons, List.take_zero, List.flatten_cons, List.flatten_nil, List.append_nil] at first
    · intro k inside
      have later := all (k + 1) (Nat.succ_lt_succ inside)
      rwa [List.take_succ_cons, List.flatten_cons, addAttributes_append] at later
  · rintro ⟨first, later⟩ k inside
    rw [List.take_succ_cons, List.flatten_cons, addAttributes_append]
    cases k with
    | zero => exact first
    | succ k => exact later k (Nat.lt_of_succ_lt_succ inside)

/-- **A chain** packs what one run of all its calls leaves, or ends at a hop. -/
theorem editAll_cases (accepted : ofRaw raw = .ok m) (hops : List (List (UInt16 × List UInt8))) :
    AllFit m hops ∧ (∃ raw', editAll raw hops = .ok raw' ∧ ofRaw raw' = .ok (m.addAttributes hops.flatten)) ∨
      ¬ AllFit m hops ∧ ThrowsLengthError (editAll raw hops) := by
  induction hops generalizing raw m with
  | nil => exact .inl ⟨fun k inside => absurd inside (Nat.not_lt_zero k), raw, rfl, accepted⟩
  | cons calls hops ih =>
    rw [allFit_cons, List.flatten_cons, addAttributes_append]
    rcases Nat.lt_or_ge 65535 (attributesSize (m.addAttributes calls)) with long | fits
    · obtain ⟨what, throws⟩ := edit_throws accepted long
      refine .inr ⟨fun all => absurd all.1 (Nat.not_le.mpr long), what, ?_⟩
      rw [editAll, List.foldlM_cons, throws]
      rfl
    · have first : editAll raw (calls :: hops) = editAll (packedBytes (m.addAttributes calls)) hops := by
        rw [editAll, List.foldlM_cons, edit_ok accepted fits]
        rfl
      rw [first]
      rcases ih (ofRaw_edit accepted calls) with ⟨all, sent⟩ | ⟨notAll, throws⟩
      · exact .inl ⟨⟨fits, all⟩, sent⟩
      · exact .inr ⟨fun all => notAll all.2, throws⟩

/-- **Passing on keeps what was there.** From any raw data that is accepted, a chain of hops
comes through if and only if every message on the way fits a TLV, and ends with
`std::length_error` else; the last receiver reads, under every type, the last accepted write of
all hops, or what the first message had where no hop wrote. -/
theorem editAll_run (accepted : ofRaw raw = .ok m) (hops : List (List (UInt16 × List UInt8))) :
    ((∃ raw', editAll raw hops = .ok raw') ↔
      ∀ k < hops.length, attributesSize (m.addAttributes (hops.take (k + 1)).flatten) ≤ 65535) ∧
    (∀ raw', editAll raw hops = .ok raw' → ∃ m', ofRaw raw' = .ok m' ∧
      ∀ type, m'.getAttributeValue type = (lastWrite type (acceptedCalls hops.flatten)).getD (m.getAttributeValue type)) ∧
    ∀ e, editAll raw hops = .error e → ∃ what, e = .lengthError what := by
  rcases editAll_cases accepted hops with ⟨all, raw', sent, read⟩ | ⟨notAll, what, throws⟩
  · refine ⟨⟨fun _ => all, fun _ => ⟨raw', sent⟩⟩, ?_, ?_⟩
    · intro last same
      obtain rfl := Except.ok.inj (sent.symm.trans same)
      exact ⟨_, read, getAttributeValue_addAttributes m hops.flatten⟩
    · intro e throws
      rw [sent] at throws
      cases throws
  · refine ⟨⟨?_, fun all => absurd all notAll⟩, ?_, ?_⟩
    · rintro ⟨raw', sent⟩
      rw [throws] at sent
      cases sent
    · intro raw' sent
      rw [throws] at sent
      cases sent
    · intro e same
      rw [throws] at same
      exact ⟨what, (Except.error.inj same).symm⟩

/-- A version, passed on by two hops that add an SSID and then overwrite both. -/
theorem editAll_run_version :
    ∃ raw' m', editAll [0x10, 0x4A, 0, 1, 0x10]
        [[(0x1045, [0x68])], [(0x104A, [0x20]), (0x1045, [0x69])]] = .ok raw' ∧
      ofRaw raw' = .ok m' ∧ m'.getAttributeValue 0x104A = [0x20] ∧ m'.getAttributeValue 0x1045 = [0x69] := by
  have accepted : ofRaw [0x10, 0x4A, 0, 1, 0x10] = .ok (lastValues [(0x104A, [0x10])]) := ofRaw_concatenates ⟨rfl, by decide⟩
  obtain ⟨through, read, -⟩ := editAll_run accepted [[(0x1045, [0x68])], [(0x104A, [0x20]), (0x1045, [0x69])]]
  obtain ⟨raw', sent⟩ := through.mpr (by decide +kernel)
  obtain ⟨m', received, values⟩ := read raw' sent
  exact ⟨raw', m', sent, received, values 0x104A, values 0x1045⟩

end Ieee1905.Wsc
