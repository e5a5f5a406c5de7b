import Ieee1905.Wsc.Names
import Ieee1905.Wsc.Normal

/-!
# Only the last writes matter

A rejected `AddAttribute` call throws before the map is touched, and an accepted one
overwrites. So two runs of calls that leave the same last accepted value under every type
leave the same message (`written_eq`); which order the calls came in, what they overwrote and
what was rejected cannot be seen any more.
-/

namespace Ieee1905.Wsc

open Codec Std WscMessage

/-- A new message after a run of `AddAttribute` calls. -/
def written (calls : List (UInt16 × List UInt8)) : WscMessage := WscMessage.empty.addAttributes calls

/-- What is read is what was last accepted. -/
theorem getAttributeValue_written (calls : List (UInt16 × List UInt8)) (type : UInt16) :
    (written calls).getAttributeValue type = (lastWrite type (acceptedCalls calls)).getD [] := by
  rw [written, empty_addAttributes, getAttributeValue_lastValues]

/-- Every type has the same last accepted value in both runs, or none in both. -/
def SameWrites (calls calls' : List (UInt16 × List UInt8)) : Prop :=
  ∀ type, lastWrite type (acceptedCalls calls) = lastWrite type (acceptedCalls calls')

/-- Every reading agrees, and `ToTlv` gives the same TLV or the same `std::length_error`. -/
structure Indistinguishable (m m' : WscMessage) : Prop where
  values : ∀ type, m.getAttributeValue type = m'.getAttributeValue type
  tlv : (∃ tlv, toTlv.run m = .ok tlv m ∧ toTlv.run m' = .ok tlv m') ∨
    ∃ what, toTlv.run m = .error (.lengthError what) m ∧ toTlv.run m' = .error (.lengthError what) m'

theorem Indistinguishable.refl (m : WscMessage) : Indistinguishable m m := by
  refine ⟨fun _ => rfl, ?_⟩
  rcases Nat.lt_or_ge 0xFFFF (packedBytes m).length with long | fits
  · obtain ⟨what, throws⟩ := toTlv_throws long
    exact .inr ⟨what, throws, throws⟩
  · exact .inl ⟨_, toTlv_ok fits, toTlv_ok fits⟩

/-- The last accepted values decide the message. -/
theorem written_eq {calls calls' : List (UInt16 × List UInt8)} (same : SameWrites calls calls') :
    written calls = written calls' := by
  rw [written, written, empty_addAttributes, empty_addAttributes, lastValues, insertMany_congr ∅ same]
  rfl

/-! ## Runs with the same last writes -/

/-- The calls on each type came in the same order. -/
theorem sameWrites_interleaved {calls calls' : List (UInt16 × List UInt8)}
    (same : ∀ type, calls.filter (fun call => call.1 = type) = calls'.filter (fun call => call.1 = type)) :
    SameWrites calls calls' := by
  have own (calls : List (UInt16 × List UInt8)) (type : UInt16) :
      lastWrite type (acceptedCalls (calls.filter fun call => call.1 = type)) = lastWrite type (acceptedCalls calls) := by
    rw [← lastWrite_filter type (acceptedCalls calls), acceptedCalls, acceptedCalls, List.filter_comm]
  intro type
  rw [← own calls, same, own calls']

theorem sameWrites_perm {calls calls' : List (UInt16 × List UInt8)} (perm : calls.Perm calls')
    (distinct : (calls.map Prod.fst).Nodup) : SameWrites calls calls' := by
  have accepted : ((acceptedCalls calls).map Prod.fst).Nodup := distinct.sublist (List.filter_sublist.map Prod.fst)
  exact lastWrite_perm (perm.filter _) accepted

theorem acceptedCalls_append (xs ys : List (UInt16 × List UInt8)) :
    acceptedCalls (xs ++ ys) = acceptedCalls xs ++ acceptedCalls ys :=
  List.filter_append ..

theorem sameWrites_rejected (pre : List (UInt16 × List UInt8)) {call : UInt16 × List UInt8}
    (long : 65535 < call.2.length) (post : List (UInt16 × List UInt8)) :
    SameWrites (pre ++ call :: post) (pre ++ post) := by
  have rejected : acceptedCalls (call :: post) = acceptedCalls post := by
    simp [acceptedCalls, long]
  intro type
  rw [acceptedCalls_append, acceptedCalls_append, rejected]

/-- A call in front of an accepted one on the same type, accepted itself or not. -/
theorem sameWrites_repeated (pre : List (UInt16 × List UInt8)) {call later : UInt16 × List UInt8}
    {post : List (UInt16 × List UInt8)} (behind : later ∈ post) (same : later.1 = call.1)
    (fits : later.2.length ≤ 65535) : SameWrites (pre ++ call :: post) (pre ++ post) := by
  rcases Nat.lt_or_ge 65535 call.2.length with long | short
  · exact sameWrites_rejected pre long post
  · have kept : acceptedCalls (call :: post) = call :: acceptedCalls post := by
      simp [acceptedCalls, short]
    have accepted : later ∈ acceptedCalls post := List.mem_filter.mpr ⟨behind, decide_eq_true fits⟩
    intro type
    rw [acceptedCalls_append, acceptedCalls_append, kept]
    exact lastWrite_overwritten same type _ accepted

/-- **The bytes of a WSC message depend only on what was last set.** Two runs of calls on new
messages with the same last accepted values cannot be told apart. That covers calls on
distinct types in another order, calls that were repeated and calls that were rejected; and
what is packed is sorted by type. -/
theorem written_indistinguishable :
    (∀ calls calls', SameWrites calls calls' → Indistinguishable (written calls) (written calls')) ∧
    (∀ calls calls' : List (UInt16 × List UInt8), calls.Perm calls' → (calls.map Prod.fst).Nodup →
      Indistinguishable (written calls) (written calls')) ∧
    (∀ calls calls' : List (UInt16 × List UInt8),
      (∀ type, calls.filter (fun call => call.1 = type) = calls'.filter (fun call => call.1 = type)) →
      Indistinguishable (written calls) (written calls')) ∧
    (∀ pre call post, (∃ later ∈ post, later.1 = call.1 ∧ later.2.length ≤ 65535) →
      Indistinguishable (written (pre ++ call :: post)) (written (pre ++ post))) ∧
    (∀ pre call post, 65535 < call.2.length →
      Indistinguishable (written (pre ++ call :: post)) (written (pre ++ post))) ∧
    ∀ calls, ∃ packed bs, packAttributes (written calls) = .ok packed ∧ Concatenates packed bs ∧ Increasing bs := by
  have told {calls calls' : List (UInt16 × List UInt8)} (same : SameWrites calls calls') :
      Indistinguishable (written calls) (written calls') := by
    rw [written_eq same]
    exact .refl _
  refine ⟨fun _ _ => told, ?_, ?_, ?_, ?_, ?_⟩
  · intro calls calls' perm distinct
    exact told (sameWrites_perm perm distinct)
  · intro calls calls' same
    exact told (sameWrites_interleaved same)
  · rintro pre call post ⟨later, behind, same, fits⟩
    exact told (sameWrites_repeated pre behind same fits)
  · intro pre call post long
    exact told (sameWrites_rejected pre long post)
  · intro calls
    have reached : Reachable (written calls) := reachable_addAttributes .empty calls
    exact ⟨_, _, packAttributes_eq _, concatenates_packedBytes reached.fits, increasing_toList _⟩

/-- A call that is rejected and one that is overwritten leave nothing to be read. -/
theorem written_indistinguishable_ssid :
    Indistinguishable (written [(0x1045, [0x61]), (0x1011, List.replicate 65536 0), (0x1045, [0x68])])
      (written [(0x1045, [0x61]), (0x1045, [0x68])]) ∧
    Indistinguishable (written [(0x1045, [0x61]), (0x1045, [0x68])]) (written [(0x1045, [0x68])]) ∧
    (written [(0x1045, [0x61]), (0x1011, List.replicate 65536 0), (0x1045, [0x68])]).getAttributeValue 0x1045 = [0x68] ∧
    (written [(0x1045, [0x61]), (0x1011, List.replicate 65536 0), (0x1045, [0x68])]).getAttributeValue 0x1011 = [] := by
  obtain ⟨-, -, -, repeated, rejected, -⟩ := written_indistinguishable
  have long : 65535 < (List.replicate 65536 (0 : UInt8)).length := by
    rw [List.length_replicate]
    decide
  have first := rejected [(0x1045, [0x61])] (0x1011, List.replicate 65536 0) [(0x1045, [0x68])] long
  have second := repeated [] (0x1045, [0x61]) [(0x1045, [0x68])] ⟨_, List.mem_singleton_self _, rfl, by decide⟩
  have same (type : UInt16) := (first.values type).trans (second.values type)
  have read (type : UInt16) := (same type).trans (getAttributeValue_written [(0x1045, [0x68])] type)
  exact ⟨first, second, read 0x1045, read 0x1011⟩

end Ieee1905.Wsc
