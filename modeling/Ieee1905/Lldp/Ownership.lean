import Ieee1905.Lldp.Runs
import Ieee1905.Machine.Moves

/-!
# Who owns the TLVs

`AddTlv` takes its argument by rvalue reference and moves it, behind its checks. So over a run
of calls on a caller's variables, each of which may be used again, a value that is accepted goes
to the PDU once and leaves an empty TLV of the same type behind, which later calls add as such;
a value that is rejected stays with the caller (`addTlv_moves`).
-/

namespace Ieee1905.Lldp

open Machine LldpPdu

universe u

variable {ι : Type u} [DecidableEq ι]

/-- `AddTlv(std::move(x))` on variable `i`; the caller goes on after an exception. -/
def moveStep (s : LldpPdu × (ι → Tlv)) (i : ι) : LldpPdu × (ι → Tlv) :=
  match addTlv.run (s.1, s.2 i) with
  | .ok _ (pdu, tlv) => (pdu, Function.update s.2 i tlv)
  | .error _ (pdu, tlv) => (pdu, Function.update s.2 i tlv)

/-- A new PDU and the variables after a run of calls. -/
def moveAll (vars : ι → Tlv) (is : List ι) : LldpPdu × (ι → Tlv) := is.foldl moveStep (LldpPdu.new, vars)

/-- A moved-from TLV is empty, and empty TLVs fit. -/
theorem moving : Moving FitsHeader Tlv.movedFrom where
  accepted := by
    rintro tlv ⟨some, low, -⟩
    exact ⟨some, low, Nat.zero_le _⟩
  again := fun _ => rfl

/-- The PDU and the variables, from the abstract container. -/
def holding (s : List Tlv × (ι → Tlv)) : LldpPdu × (ι → Tlv) := (⟨s.1⟩, s.2)

theorem moveStep_eq (s : List Tlv × (ι → Tlv)) (i : ι) :
    moveStep (holding s) i = holding (handStep FitsHeader Tlv.movedFrom s i) := by
  rcases addTlv_cases ⟨s.1⟩ (s.2 i) with ⟨fits, run⟩ | ⟨rejected, e, run⟩
  · simp only [moveStep, holding, run, handStep, if_pos fits]
  · simp only [moveStep, holding, run, handStep, if_neg rejected, Function.update_eq_self]

/-- The code hands over as the abstract container does. -/
theorem moveAll_eq (vars : ι → Tlv) (is : List ι) :
    moveAll vars is = holding (handAll FitsHeader Tlv.movedFrom vars is) := by
  show is.foldl moveStep (holding ([], vars)) = _
  exact List.foldl_hom holding moveStep_eq

/-- **Every value is with the PDU or with the caller**, over every run of `AddTlv(std::move(x))`
calls on any variables, used again or not: the first accepted call on a variable adds its value
and leaves it empty, every later one adds an empty TLV of its type, and a variable that is
rejected is never touched. The size is two bytes for each accepted call and the terminator, and
every accepted value once. -/
theorem addTlv_moves (vars : ι → Tlv) (is : List ι) :
    let (pdu, vars') := moveAll vars is
    (∀ i, vars' i = if i ∈ is ∧ FitsHeader (vars i) then (vars i).movedFrom else vars i) ∧
    (∀ pre i post, is = pre ++ i :: post → FitsHeader (vars i) →
      pdu.getTlvs[pre.countP fun i => FitsHeader (vars i)]? = some (if i ∈ pre then (vars i).movedFrom else vars i)) ∧
    pdu.getTlvs.length = (is.countP fun i => FitsHeader (vars i)) ∧
    pdu.getPackedSize = .ok (2 + 2 * (is.countP fun i => FitsHeader (vars i)) +
      ∑ i ∈ is.toFinset.filter fun i => FitsHeader (vars i), (vars i).getValue.length) := by
  rw [moveAll_eq]
  refine ⟨?_, ?_, moving.length_handAll vars is, ?_⟩
  · intro i
    rw [moving.handAll_vars, leftIn]
  · rintro pre i post rfl fits
    exact moving.getElem?_handAll vars pre post fits
  · have fits := moving.accepted_handAll vars is
    have values := moving.sum_handAll (fun tlv => tlv.getValue.length) (fun _ => rfl) vars is
    rw [getPackedSize_eq fits, List.sum_map_add, values, List.map_const', List.sum_replicate_nat, moving.length_handAll]
    congr 1
    omega

end Ieee1905.Lldp
