import Ieee1905.Machine.Moves
import Ieee1905.Wire.Built

/-!
# TLVs that are moved into a CMDU

`Cmdu::AddTlv` takes every TLV and moves it, so a variable that is used again adds a moved-from
TLV: the type again, and no value (`movedTlvs`). The value stands in the list and on the wire
where its variable was used first, and what is added later takes three bytes and is never what
`FindTlv` returns, neither here nor at the peer (`cmdu_moves`).
-/

namespace Ieee1905.Wire

open Codec Machine MessageParser MessageSerializer

universe u

variable {ι : Type u} [DecidableEq ι]

/-- `AddTlv(std::move(x))` on variable `i`. -/
def moveStep (s : Cmdu × (ι → Tlv)) (i : ι) : Cmdu × (ι → Tlv) :=
  let (cmdu, tlv) := s.1.addTlvFrom (s.2 i)
  (cmdu, Function.update s.2 i tlv)

/-- A CMDU and the variables after a run of calls. -/
def moveAll (c : Cmdu) (vars : ι → Tlv) (is : List ι) : Cmdu × (ι → Tlv) := is.foldl moveStep (c, vars)

/-- Each call adds what its variable holds: the value at the first call, nothing at later ones. -/
def movedTlvs (vars : ι → Tlv) (is : List ι) : List Tlv :=
  is.mapIdx fun k i => if i ∈ is.take k then (vars i).movedFrom else vars i

/-- `AddTlv` checks nothing. -/
def anyTlv (_ : Tlv) : Prop := True

instance : DecidablePred anyTlv := fun _ => inferInstanceAs (Decidable True)

/-- The caller's `Tlv` is moved from in both branches. -/
theorem addTlvFrom_eq (c : Cmdu) (tlv : Tlv) : c.addTlvFrom tlv = (c.addTlv tlv, tlv.movedFrom) := by
  unfold Cmdu.addTlv Cmdu.addTlvFrom
  split
  · split <;> rfl
  · rfl

theorem decide_anyTlv (tlv : Tlv) : decide (anyTlv tlv) = true := rfl

theorem movingAny : Moving anyTlv Tlv.movedFrom := ⟨fun _ _ => trivial, fun _ => rfl⟩

/-- The TLVs that the calls add. -/
def given (vars : ι → Tlv) (is : List ι) : List Tlv := (handAll anyTlv Tlv.movedFrom vars is).1

theorem moveAll_eq (c : Cmdu) (vars : ι → Tlv) (is : List ι) :
    moveAll c vars is = (c.addTlvs (given vars is), (handAll anyTlv Tlv.movedFrom vars is).2) := by
  induction is using List.reverseRecOn with
  | nil => rfl
  | append_singleton is i ih =>
    have last : moveAll c vars (is ++ [i]) = moveStep (moveAll c vars is) i := List.foldl_append
    have step : handAll anyTlv Tlv.movedFrom vars (is ++ [i]) = _ := handAll_concat vars is i
    rw [last, ih, given, given, step, handStep, if_pos (show anyTlv _ from trivial), Cmdu.addTlvs, Cmdu.addTlvs,
      List.foldl_append]
    simp only [moveStep, addTlvFrom_eq]
    rfl

theorem length_given (vars : ι → Tlv) (is : List ι) : (given vars is).length = is.length := by
  rw [given, movingAny.length_handAll]
  simp only [decide_anyTlv, List.countP_true]

/-- What is handed over at a place is told by the calls before it. -/
theorem given_eq (vars : ι → Tlv) (is : List ι) : given vars is = movedTlvs vars is := by
  apply List.ext_getElem?
  intro k
  rw [movedTlvs, List.getElem?_mapIdx]
  rcases Nat.lt_or_ge k is.length with inside | outside
  · have placed := movingAny.getElem?_handAll vars (is.take k) (i := is[k]) (is.drop (k + 1)) trivial
    have place : (is.take k).countP (fun i => anyTlv (vars i)) = k := by
      simp only [decide_anyTlv, List.countP_true, List.length_take]
      exact Nat.min_eq_left (Nat.le_of_lt inside)
    rw [List.getElem_cons_drop, List.take_append_drop, place] at placed
    rw [given, placed, List.getElem?_eq_getElem inside]
    rfl
  · rw [List.getElem?_eq_none (by rwa [length_given]), List.getElem?_eq_none outside]
    rfl

/-- The full TLV is found, not one that was moved from. -/
theorem find?_given (vars : ι → Tlv) (is : List ι) {p : Tlv → Bool} (kept : ∀ tlv : Tlv, p tlv.movedFrom = p tlv) :
    (given vars is).find? p = (is.find? fun i => p (vars i)).map vars := by
  rw [given, movingAny.find?_handAll kept]
  simp only [decide_anyTlv, Bool.true_and]

theorem countP_given (vars : ι → Tlv) (is : List ι) {p : Tlv → Bool} (kept : ∀ tlv : Tlv, p tlv.movedFrom = p tlv) :
    (given vars is).countP p = is.countP fun i => p (vars i) := by
  induction is using List.reverseRecOn with
  | nil => rfl
  | append_singleton is i ih =>
    have more : given vars (is ++ [i]) = given vars is ++ [if i ∈ is then (vars i).movedFrom else vars i] :=
      movingAny.handAll_concat_fst vars is i
    rw [more, List.countP_append, ih, List.countP_append, List.countP_singleton, List.countP_singleton]
    by_cases before : i ∈ is
    · rw [if_pos before, kept]
    · rw [if_neg before]

theorem any_given (vars : ι → Tlv) (is : List ι) : (given vars is).any Tlv.isEnd = is.any fun i => (vars i).isEnd := by
  rw [Bool.eq_iff_iff, List.any_eq_true, List.any_eq_true, ← List.countP_pos_iff, ← List.countP_pos_iff,
    countP_given vars is fun _ => rfl]

/-- Three bytes for each call, and every value once. -/
theorem builtSize_given (vars : ι → Tlv) (is : List ι) :
    builtSize (given vars is) = 8 + 3 * is.length + ∑ i ∈ is.toFinset, (vars i).getValue.length +
      if is.any fun i => (vars i).isEnd then 0 else 3 := by
  have values := movingAny.sum_handAll (fun tlv => tlv.getValue.length) (fun _ => rfl) vars is
  have kept : (is.toFinset.filter fun i => anyTlv (vars i)) = is.toFinset := Finset.filter_true_of_mem fun _ _ => trivial
  rw [kept] at values
  rw [builtSize, any_given, List.sum_map_add, List.map_const', List.sum_replicate_nat, length_given]
  rw [← given] at values
  omega

/-- **Moved-from TLVs are ballast**: over every run of `AddTlv(std::move(x))` calls on a new CMDU,
a used variable is left empty, and the CMDU and its packet hold every value once, where its
variable was used first, but for the first terminator, which stands last. A variable used again
adds a TLV of three bytes that `FindTlv` never returns, since the full one stands in front of it.
A peer reads the same, while a terminator is handed over once at most. -/
theorem cmdu_moves (type : MessageType) (id : MessageId) (flags : MessageFlags) (fragmentId : FragmentId) (vars : ι → Tlv)
    (is : List ι) :
    let (cmdu, vars') := moveAll (Cmdu.new type id flags fragmentId) vars is
    (∀ i, vars' i = if i ∈ is then (vars i).movedFrom else vars i) ∧
    cmdu.getTlvs = stopLast Tlv.isEnd (movedTlvs vars is) ∧
    (∀ t, t ≠ TlvTypes.endOfMessage → cmdu.findTlv t = (is.find? fun i => (vars i).getType == t).map vars) ∧
    ∃ packet, pack cmdu = .ok packet ∧
      packet = headerBytes (Cmdu.new type id flags fragmentId) ++ encodeTlvs (stopLast Tlv.isEnd (movedTlvs vars is)) ++
        (if is.any fun i => (vars i).isEnd then [] else [0, 0, 0]) ∧
      packet.length = 8 + 3 * is.length + ∑ i ∈ is.toFinset, (vars i).getValue.length +
        (if is.any fun i => (vars i).isEnd then 0 else 3) ∧
      ((is.countP fun i => (vars i).isEnd) ≤ 1 → ∀ padding, ∃ d, parse (packet ++ padding) = .ok d ∧
        d = { Cmdu.new type id flags fragmentId with
          tlvs := payload Tlv.isEnd (movedTlvs vars is) ++ [((movedTlvs vars is).find? Tlv.isEnd).getD emptyEnd] } ∧
        ∀ t, t ≠ TlvTypes.endOfMessage → d.findTlv t = (is.find? fun i => (vars i).getType == t).map vars) := by
  rw [moveAll_eq]
  have found (t : TlvType) := find?_given vars is (p := fun tlv => tlv.getType == t) fun _ => rfl
  refine ⟨?_, ?_, ?_, _, pack_eq _, ?_, ?_, ?_⟩
  · intro i
    rw [movingAny.handAll_vars, leftIn]
    simp only [anyTlv, and_true]
  · rw [addTlvs_new, given_eq]
    rfl
  · intro t other
    rw [findTlv_addTlvs type id flags fragmentId _ other, found]
  · rw [packBytes_built, any_given, given_eq, addTlvs_new]
    rfl
  · rw [length_packBytes_built, builtSize_given]
  · intro once padding
    rw [← countP_given vars is fun _ => rfl] at once
    refine ⟨_, parse_built type id flags fragmentId once padding, ?_, ?_⟩
    · rw [given_eq]
    · intro t other
      have last : (((given vars is).find? Tlv.isEnd).getD emptyEnd).isEnd = true := by
        cases hit : (given vars is).find? Tlv.isEnd with
        | none => rfl
        | some e => exact List.find?_some hit
      rw [findTlv_built type id flags fragmentId _ other last, found]

/-- One variable, used twice in front of a terminator that is handed over first. -/
example :
    (moveAll (Cmdu.new 0 1) (fun device : Bool => if device then ⟨3, [0x11], by decide⟩ else emptyEnd)
      [false, true, true]).1.getTlvs = [⟨3, [0x11], by decide⟩, ⟨3, [], by decide⟩, emptyEnd] := by
  decide

end Ieee1905.Wire
