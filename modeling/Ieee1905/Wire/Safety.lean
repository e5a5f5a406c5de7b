import Ieee1905.Wire.Truncation

/-!
# `Parse` stays inside its buffer

Every read of the model goes through the checked cursor, so an access outside the buffer
would come out as `Fault.outOfBounds`. It never does: the size check covers the header, the
checks of an iteration cover its TLV, and a TLV takes at least three bytes, which bounds the
iterations.
-/

namespace Ieee1905.Wire

open Codec Machine MessageParser

/-- The size check makes room for the eight header reads. -/
theorem readHeader_ok {b : List UInt8} (long : 8 ≤ b.length) : ∃ c, readHeader b 0 = .ok (c, 8) := by
  have size : (b.take 8).length = Cmdu.cmduHeaderSize := by
    rw [List.length_take]
    exact Nat.min_eq_left long
  exact ⟨_, readHeader_eq ⟨b.take 8, size⟩ (List.take_append_drop 8 b).symm ⟨[], emptyEnd, Clean.nil, rfl⟩⟩

theorem at_behind_header {b : List UInt8} (long : 8 ≤ b.length) : At b 8 (b.drop 8) := ⟨rfl, long⟩

section Loop

variable {b : List UInt8} {ptr : ℕ} {input : List UInt8} (start : At b ptr input) (c : Cmdu)

include start

/-- The fuel of the model is never what ends the loop. -/
theorem readTlvs_ends : Ends (beforeEnd b) (readTlv b) (ptr, c) (readTlvs b (ptr, c)) :=
  whileLoop_records_end (reads_readTlv b) (by decide) three_le_encode start _ (fuel_enough start)

/-- A loop that does not return throws `std::runtime_error`. -/
theorem readTlvs_refuses {e : Fault} (thrown : readTlvs b (ptr, c) = .error e) : e.IsRuntimeError := by
  have outcome := whileLoop_sound Fault.exhausted (reads_readTlv b) (by decide) three_le_encode c start (fuel_enough start)
  rw [← readTlvs, thrown] at outcome
  exact outcome

end Loop

/-- **`Parse` is memory safe and total.** No read is outside the buffer, the constructor of
`Tlv` never throws and the loop ends, behind as many whole TLVs as fit the bytes that follow
the header; an accepted message lies inside the buffer. -/
theorem parse_safe (b : List UInt8) :
    (∀ offset, parse b ≠ .error (.outOfBounds offset)) ∧ ¬ ThrowsLengthError (parse b) ∧
    ((∃ c, parse b = .ok c) ∨ ThrowsRuntimeError (parse b)) ∧
    (8 ≤ b.length → ∃ c, readHeader b 0 = .ok (c, 8) ∧
      (∀ k flow, Iterates (beforeEnd b) (readTlv b) (8, c) k flow →
        flow.state.1 ≤ b.length ∧ k ≤ (b.length - 8) / 3) ∧
      Ends (beforeEnd b) (readTlv b) (8, c) (readTlvs b (8, c)) ∧
      ∀ e, readTlvs b (8, c) = .error e → e.IsRuntimeError) ∧
    ∀ c, parse b = .ok c → 8 + (c.getTlvs.map fun tlv => 3 + tlv.getLength.toNat).sum ≤ b.length := by
  refine ⟨?_, ?_, parse_ok_or_throws b, ?_, ?_⟩
  · intro offset outside
    obtain ⟨what, same⟩ := Fault.isRuntimeError_of_thrown (parse_ok_or_throws b) outside
    cases same
  · rintro ⟨what, tooLong⟩
    obtain ⟨what', same⟩ := Fault.isRuntimeError_of_thrown (parse_ok_or_throws b) tooLong
    cases same
  · intro long
    obtain ⟨c, header⟩ := readHeader_ok long
    have start := at_behind_header long
    refine ⟨c, header, ?_, readTlvs_ends start c, ?_⟩
    · intro k flow run
      have bounds := iterates_bounds (reads_readTlv b) (by decide) three_le_encode start run
      rwa [List.length_drop] at bounds
    · intro e thrown
      exact readTlvs_refuses start c thrown
  · intro c accepted
    obtain ⟨m, p, word, rfl⟩ := parse_ok_iff.mp accepted
    exact wireSize_le word

end Ieee1905.Wire
