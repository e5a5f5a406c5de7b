import Ieee1905.Model.Lldp

/-!
# Runs of `AddTlv` on an LLDP PDU

The checks of `AddTlv` stand in front of the move, so a rejected call changes nothing and the
list holds the accepted TLVs, in order. Each of them fits the LLDP header of seven bits of
type and nine bits of length, which makes the check in `GetPackedSize` dead code.
-/

namespace Ieee1905.Lldp

open LldpPdu

/-- A TLV that fits the header: neither the terminator's type nor more than seven bits of it, and
at most nine bits of length. -/
def FitsHeader (tlv : Tlv) : Prop :=
  1 ≤ tlv.getType.toNat ∧ tlv.getType.toNat ≤ 127 ∧ tlv.getValue.length ≤ 511

instance (tlv : Tlv) : Decidable (FitsHeader tlv) := inferInstanceAs (Decidable (_ ∧ _ ∧ _))

/-! ## One call -/

variable {tlv : Tlv}

theorem isEndOfLldpdu_iff : (tlv.getType == LldpTlvTypes.endOfLldpdu) = true ↔ tlv.getType.toNat = 0 := by
  rw [beq_iff_eq, ← UInt8.toNat_inj]
  rfl

theorem exceedsType_iff : tlv.getType > LldpTlvTypes.organizationSpecific ↔ 127 < tlv.getType.toNat :=
  UInt8.lt_iff_toNat_lt

/-- The cast to 16 bits does not let a long value pass for a short one. -/
theorem exceedsLength_iff : tlv.getLength > 0x1FF ↔ 511 < tlv.getValue.length := by
  have length := tlv.toNat_getLength
  have compare : tlv.getLength > 0x1FF ↔ 511 < tlv.getLength.toNat := UInt16.lt_iff_toNat_lt
  rw [compare, length]
  rfl

/-- A type of the header passes both checks of the type. -/
theorem type_passes (some : 1 ≤ tlv.getType.toNat) (low : tlv.getType.toNat ≤ 127) :
    ¬ (tlv.getType == LldpTlvTypes.endOfLldpdu) = true ∧ ¬ tlv.getType > LldpTlvTypes.organizationSpecific := by
  rw [isEndOfLldpdu_iff, exceedsType_iff]
  omega

theorem addTlv_ok (fits : FitsHeader tlv) (pdu : LldpPdu) :
    addTlv.run (pdu, tlv) = .ok .unit (⟨pdu.tlvs ++ [tlv]⟩, tlv.movedFrom) := by
  obtain ⟨some, low, short⟩ := fits
  obtain ⟨notEnd, notHigh⟩ := type_passes some low
  have notLong : ¬ tlv.getLength > 0x1FF := by
    rw [exceedsLength_iff]
    omega
  simp only [addTlv, EStateM.run_bind, EStateM.run_get, if_neg notEnd, if_neg notHigh, if_neg notLong]
  rfl

/-- The type is checked first, whatever the length. -/
theorem addTlv_invalid (reserved : tlv.getType.toNat = 0 ∨ 127 < tlv.getType.toNat) (pdu : LldpPdu) :
    ∃ what, addTlv.run (pdu, tlv) = .error (.invalidArgument what) (pdu, tlv) := by
  by_cases isEnd : (tlv.getType == LldpTlvTypes.endOfLldpdu) = true
  · refine ⟨"END_OF_LLDPDU must not be added manually. It is managed by LldpPdu.", ?_⟩
    simp only [addTlv, EStateM.run_bind, EStateM.run_get, if_pos isEnd]
    rfl
  · have high : tlv.getType > LldpTlvTypes.organizationSpecific := by
      rw [isEndOfLldpdu_iff] at isEnd
      rw [exceedsType_iff]
      omega
    refine ⟨"LLDP TLV Type exceeds 7-bit limit (max 127).", ?_⟩
    simp only [addTlv, EStateM.run_bind, EStateM.run_get, if_neg isEnd, if_pos high]
    rfl

theorem addTlv_long (some : 1 ≤ tlv.getType.toNat) (low : tlv.getType.toNat ≤ 127) (long : 511 < tlv.getValue.length)
    (pdu : LldpPdu) : ∃ what, addTlv.run (pdu, tlv) = .error (.lengthError what) (pdu, tlv) := by
  obtain ⟨notEnd, notHigh⟩ := type_passes some low
  have tooLong := exceedsLength_iff.mpr long
  refine ⟨"LLDP TLV Value length exceeds 9-bit limit (max 511 bytes).", ?_⟩
  simp only [addTlv, EStateM.run_bind, EStateM.run_get, if_neg notEnd, if_neg notHigh, if_pos tooLong]
  rfl

/-- **Everything one call can do**: take the TLV, or throw and leave both objects alone. -/
theorem addTlv_cases (pdu : LldpPdu) (tlv : Tlv) :
    FitsHeader tlv ∧ addTlv.run (pdu, tlv) = .ok .unit (⟨pdu.tlvs ++ [tlv]⟩, tlv.movedFrom) ∨
      ¬ FitsHeader tlv ∧ ∃ e, addTlv.run (pdu, tlv) = .error e (pdu, tlv) := by
  by_cases fits : FitsHeader tlv
  · exact .inl ⟨fits, addTlv_ok fits pdu⟩
  · refine .inr ⟨fits, ?_⟩
    by_cases reserved : tlv.getType.toNat = 0 ∨ 127 < tlv.getType.toNat
    · obtain ⟨what, throws⟩ := addTlv_invalid reserved pdu
      exact ⟨_, throws⟩
    · unfold FitsHeader at fits
      have some : 1 ≤ tlv.getType.toNat := by omega
      have low : tlv.getType.toNat ≤ 127 := by omega
      have long : 511 < tlv.getValue.length := by omega
      obtain ⟨what, throws⟩ := addTlv_long some low long pdu
      exact ⟨_, throws⟩

/-! ## Runs -/

theorem step_tlvs (pdu : LldpPdu) (tlv : Tlv) :
    (pdu.step tlv).tlvs = pdu.tlvs ++ if FitsHeader tlv then [tlv] else [] := by
  rcases addTlv_cases pdu tlv with ⟨fits, run⟩ | ⟨rejected, e, run⟩
  · rw [step, run, if_pos fits]
  · rw [step, run, if_neg rejected, List.append_nil]

/-- A run keeps the accepted TLVs, in the order of the calls. -/
theorem addTlvs_tlvs (pdu : LldpPdu) (tlvs : List Tlv) :
    (pdu.addTlvs tlvs).tlvs = pdu.tlvs ++ tlvs.filter FitsHeader := by
  induction tlvs generalizing pdu with
  | nil => exact (List.append_nil _).symm
  | cons tlv tlvs ih =>
    have rest : (pdu.addTlvs (tlv :: tlvs)).tlvs = ((pdu.step tlv).addTlvs tlvs).tlvs := rfl
    rw [rest, ih, step_tlvs, List.append_assoc, List.filter_cons]
    by_cases fits : FitsHeader tlv
    · simp [fits]
    · simp [fits]

/-! ## The packed size -/

theorem addPackedSize_ok (fits : FitsHeader tlv) (totalSize : ℕ) :
    addPackedSize totalSize tlv = .ok (totalSize + (2 + tlv.getValue.length)) := by
  have length := tlv.toNat_getLength
  have notLong : ¬ tlv.getLength > 0x1FF := by
    rw [exceedsLength_iff]
    have := fits.2.2
    omega
  rw [addPackedSize, if_neg notLong, length]
  rfl

theorem foldlM_addPackedSize {tlvs : List Tlv} (fits : ∀ tlv ∈ tlvs, FitsHeader tlv) (totalSize : ℕ) :
    tlvs.foldlM addPackedSize totalSize = .ok (totalSize + (tlvs.map fun tlv => 2 + tlv.getValue.length).sum) := by
  induction tlvs generalizing totalSize with
  | nil => rfl
  | cons tlv tlvs ih =>
    have first := addPackedSize_ok (fits tlv List.mem_cons_self) totalSize
    have rest (size : ℕ) := ih (fun t member => fits t (List.mem_cons_of_mem tlv member)) size
    have loop : (tlv :: tlvs).foldlM addPackedSize totalSize =
        tlvs.foldlM addPackedSize (totalSize + (2 + tlv.getValue.length)) := by
      rw [List.foldlM_cons, first]
      rfl
    rw [loop, rest, List.map_cons, List.sum_cons, Nat.add_assoc]

/-- The check of the length in `GetPackedSize` never fires on TLVs that fit. -/
theorem getPackedSize_eq {pdu : LldpPdu} (fits : ∀ tlv ∈ pdu.tlvs, FitsHeader tlv) :
    pdu.getPackedSize = .ok (2 + (pdu.tlvs.map fun tlv => 2 + tlv.getValue.length).sum) := by
  rw [getPackedSize, foldlM_addPackedSize fits, Nat.zero_add, Nat.add_comm 2]
  rfl

/-- **The invariant of LLDP PDUs**, over every run of `AddTlv` calls on a new PDU, rejected ones
included. -/
theorem addTlvs_invariant (tlvs : List Tlv) :
    let pdu := LldpPdu.new.addTlvs tlvs
    (∀ tlv, (∃ s, addTlv.run (pdu, tlv) = .ok .unit s) ↔
      1 ≤ tlv.getType.toNat ∧ tlv.getType.toNat ≤ 127 ∧ tlv.getValue.length ≤ 511) ∧
    (∀ tlv, tlv.getType.toNat = 0 ∨ 127 < tlv.getType.toNat →
      ∃ what, addTlv.run (pdu, tlv) = .error (.invalidArgument what) (pdu, tlv)) ∧
    (∀ tlv, 1 ≤ tlv.getType.toNat → tlv.getType.toNat ≤ 127 → 511 < tlv.getValue.length →
      ∃ what, addTlv.run (pdu, tlv) = .error (.lengthError what) (pdu, tlv)) ∧
    pdu.getTlvs = tlvs.filter FitsHeader ∧
    (∀ tlv ∈ pdu.getTlvs, tlv.getType.toNat < 2 ^ 7 ∧ tlv.getLength.toNat < 2 ^ 9 ∧
      tlv.getLength.toNat = tlv.getValue.length) ∧
    pdu.getPackedSize = .ok (2 + ((tlvs.filter FitsHeader).map fun tlv => 2 + tlv.getValue.length).sum) := by
  intro pdu
  have stored : pdu.tlvs = tlvs.filter FitsHeader := addTlvs_tlvs LldpPdu.new tlvs
  have fits : ∀ tlv ∈ pdu.tlvs, FitsHeader tlv := by
    intro tlv member
    rw [stored] at member
    exact of_decide_eq_true (List.mem_filter.mp member).2
  refine ⟨?_, ?_, ?_, stored, ?_, ?_⟩
  · intro tlv
    constructor
    · rintro ⟨s, taken⟩
      rcases addTlv_cases pdu tlv with ⟨fits, -⟩ | ⟨-, e, throws⟩
      · exact fits
      · rw [throws] at taken
        cases taken
    · intro fits
      exact ⟨_, addTlv_ok fits pdu⟩
  · intro tlv reserved
    exact addTlv_invalid reserved pdu
  · intro tlv some low long
    exact addTlv_long some low long pdu
  · intro tlv member
    obtain ⟨-, low, short⟩ := fits tlv member
    have length : tlv.getLength.toNat = tlv.getValue.length := tlv.toNat_getLength
    omega
  · rw [getPackedSize_eq fits, stored]

/-- The types on both sides of the two bounds. -/
example :
    (LldpPdu.new.addTlvs [⟨0, [], by decide⟩, ⟨1, [7], by decide⟩, ⟨127, [], by decide⟩, ⟨128, [], by decide⟩]).getTlvs =
      [⟨1, [7], by decide⟩, ⟨127, [], by decide⟩] := by
  decide +kernel

end Ieee1905.Lldp
