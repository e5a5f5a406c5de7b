import Mathlib.Algebra.BigOperators.Group.Finset.Basic
import Mathlib.Algebra.Ring.Nat
import Mathlib.Data.Finset.Dedup

/-!
# Values that are moved out of variables

A container takes values out of a caller's variables, one hand-over at a time, and a variable
whose value was taken is left moved-from; the caller may use a variable again. A container that
refuses leaves the variable alone. `Moving` says what the moved-from value must be like for the
whole run to have a closed form: a value goes to the container once, at the first hand-over that
is accepted, and nothing is in both places or in neither.
-/

namespace Ieee1905.Machine

universe u v

variable {ι : Type u} {τ : Type v} [DecidableEq ι]

/-- What is taken once is taken again, and moving it again changes nothing. -/
structure Moving (accepts : τ → Prop) (movedFrom : τ → τ) : Prop where
  accepted : ∀ x, accepts x → accepts (movedFrom x)
  again : ∀ x, movedFrom (movedFrom x) = movedFrom x

section Run

variable (accepts : τ → Prop) [DecidablePred accepts] (movedFrom : τ → τ)

/-- One hand-over: what the container holds and the variables. -/
def handStep (s : List τ × (ι → τ)) (i : ι) : List τ × (ι → τ) :=
  if accepts (s.2 i) then (s.1 ++ [s.2 i], Function.update s.2 i (movedFrom (s.2 i))) else s

def handAll (vars : ι → τ) (is : List ι) : List τ × (ι → τ) := is.foldl (handStep accepts movedFrom) ([], vars)

/-- What is in a variable after a run. -/
def leftIn (vars : ι → τ) (is : List ι) (i : ι) : τ :=
  if i ∈ is ∧ accepts (vars i) then movedFrom (vars i) else vars i

end Run

variable {accepts : τ → Prop} [DecidablePred accepts] {movedFrom : τ → τ}

theorem handAll_concat (vars : ι → τ) (is : List ι) (i : ι) :
    handAll accepts movedFrom vars (is ++ [i]) = handStep accepts movedFrom (handAll accepts movedFrom vars is) i := by
  rw [handAll, List.foldl_append]
  rfl

namespace Moving

variable (moving : Moving accepts movedFrom)

include moving

/-- A refused variable stays refused, a taken one can be taken again. -/
theorem accepts_leftIn (vars : ι → τ) (is : List ι) (i : ι) :
    accepts (leftIn accepts movedFrom vars is i) ↔ accepts (vars i) := by
  unfold leftIn
  split
  · rename_i moved
    exact ⟨fun _ => moved.2, moving.accepted _⟩
  · exact Iff.rfl

theorem leftIn_concat (vars : ι → τ) (is : List ι) (i : ι) (taken : accepts (vars i)) :
    Function.update (leftIn accepts movedFrom vars is) i (movedFrom (leftIn accepts movedFrom vars is i)) =
      leftIn accepts movedFrom vars (is ++ [i]) := by
  funext j
  by_cases same : j = i
  · subst same
    have member : j ∈ is ++ [j] := List.mem_append_right is (List.mem_singleton_self j)
    have moved : leftIn accepts movedFrom vars (is ++ [j]) j = movedFrom (vars j) := if_pos ⟨member, taken⟩
    rw [Function.update_self, moved, leftIn]
    split
    · exact moving.again _
    · rfl
  · have mem_iff : j ∈ is ++ [i] ↔ j ∈ is := by simp [same]
    rw [Function.update_of_ne same, leftIn, leftIn]
    simp only [mem_iff]

/-- **The variables after a run.** -/
theorem handAll_vars (vars : ι → τ) (is : List ι) :
    (handAll accepts movedFrom vars is).2 = leftIn accepts movedFrom vars is := by
  induction is using List.reverseRecOn with
  | nil =>
    funext i
    rw [leftIn, if_neg fun moved => List.not_mem_nil moved.1]
    rfl
  | append_singleton is i ih =>
    rw [handAll_concat, handStep, ih]
    by_cases taken : accepts (vars i)
    · rw [if_pos ((moving.accepts_leftIn vars is i).mpr taken)]
      exact moving.leftIn_concat vars is i taken
    · rw [if_neg (mt (moving.accepts_leftIn vars is i).mp taken), ih]
      funext j
      rw [leftIn, leftIn]
      by_cases same : j = i
      · subst same
        rw [if_neg fun moved => taken moved.2, if_neg fun moved => taken moved.2]
      · have mem_iff : j ∈ is ++ [i] ↔ j ∈ is := by simp [same]
        simp only [mem_iff]

/-- **One more hand-over** adds what is left in the variable, where it is accepted. -/
theorem handAll_concat_fst (vars : ι → τ) (is : List ι) (i : ι) :
    (handAll accepts movedFrom vars (is ++ [i])).1 = (handAll accepts movedFrom vars is).1 ++
      if accepts (vars i) then [if i ∈ is then movedFrom (vars i) else vars i] else [] := by
  rw [handAll_concat, handStep, moving.handAll_vars]
  by_cases taken : accepts (vars i)
  · rw [if_pos ((moving.accepts_leftIn vars is i).mpr taken), if_pos taken]
    simp only [leftIn, taken, and_true]
  · rw [if_neg (mt (moving.accepts_leftIn vars is i).mp taken), if_neg taken, List.append_nil]

theorem length_handAll (vars : ι → τ) (is : List ι) :
    (handAll accepts movedFrom vars is).1.length = is.countP fun i => accepts (vars i) := by
  induction is using List.reverseRecOn with
  | nil => rfl
  | append_singleton is i ih =>
    rw [moving.handAll_concat_fst, List.length_append, ih, List.countP_append]
    by_cases taken : accepts (vars i) <;> simp [taken]

theorem accepted_handAll (vars : ι → τ) (is : List ι) : ∀ x ∈ (handAll accepts movedFrom vars is).1, accepts x := by
  induction is using List.reverseRecOn with
  | nil => exact fun x member => absurd member List.not_mem_nil
  | append_singleton is i ih =>
    intro x member
    rw [moving.handAll_concat_fst] at member
    rcases List.mem_append.mp member with earlier | now
    · exact ih x earlier
    · by_cases taken : accepts (vars i)
      · rw [if_pos taken] at now
        obtain rfl := List.mem_singleton.mp now
        split
        · exact moving.accepted _ taken
        · exact taken
      · rw [if_neg taken] at now
        cases now

/-- The container only grows. -/
theorem handAll_grows (vars : ι → τ) (is js : List ι) :
    (handAll accepts movedFrom vars is).1 <+: (handAll accepts movedFrom vars (is ++ js)).1 := by
  induction js using List.reverseRecOn with
  | nil => rw [List.append_nil]
  | append_singleton js j ih =>
    rw [← List.append_assoc, moving.handAll_concat_fst]
    exact ih.trans (List.prefix_append _ _)

/-- **Where a value went**: to the place of its first hand-over; what is handed over later from
the same variable is moved-from. -/
theorem getElem?_handAll (vars : ι → τ) (pre : List ι) {i : ι} (post : List ι) (taken : accepts (vars i)) :
    (handAll accepts movedFrom vars (pre ++ i :: post)).1[pre.countP fun i => accepts (vars i)]? =
      some (if i ∈ pre then movedFrom (vars i) else vars i) := by
  have grown := moving.handAll_grows vars (pre ++ [i]) post
  rw [List.append_assoc, List.singleton_append, moving.handAll_concat_fst, if_pos taken] at grown
  obtain ⟨rest, same⟩ := grown
  rw [← same, ← moving.length_handAll, List.append_assoc, List.getElem?_append_right (Nat.le_refl _), Nat.sub_self]
  rfl

/-- What is searched for by a property that moving keeps is found with its value: a moved-from
value stands behind the place of its first hand-over. -/
theorem find?_handAll {p : τ → Bool} (kept : ∀ x, p (movedFrom x) = p x) (vars : ι → τ) (is : List ι) :
    (handAll accepts movedFrom vars is).1.find? p = (is.find? fun i => accepts (vars i) && p (vars i)).map vars := by
  induction is using List.reverseRecOn with
  | nil => rfl
  | append_singleton is i ih =>
    rw [moving.handAll_concat_fst, List.find?_append, ih, List.find?_append]
    cases found : is.find? fun i => accepts (vars i) && p (vars i) with
    | some j => rfl
    | none =>
      by_cases taken : accepts (vars i)
      · by_cases before : i ∈ is
        · have miss := List.find?_eq_none.mp found i before
          simp only [taken, decide_true, Bool.true_and] at miss
          simp [taken, before, kept, miss]
        · cases hit : p (vars i) <;> simp [taken, before, hit]
      · simp [taken]

/-- **Nothing is in both places or in neither**: what the container weighs is what the variables
weighed that it took, each once, however often they were handed over. -/
theorem sum_handAll (weight : τ → ℕ) (empty : ∀ x, weight (movedFrom x) = 0) (vars : ι → τ) (is : List ι) :
    ((handAll accepts movedFrom vars is).1.map weight).sum =
      ∑ i ∈ is.toFinset.filter fun i => accepts (vars i), weight (vars i) := by
  induction is using List.reverseRecOn with
  | nil => rfl
  | append_singleton is i ih =>
    have indices : (is ++ [i]).toFinset = insert i is.toFinset := by
      ext j
      simp
    rw [moving.handAll_concat_fst, List.map_append, List.sum_append, ih, indices, Finset.filter_insert]
    by_cases taken : accepts (vars i)
    · rw [if_pos taken, if_pos taken]
      by_cases before : i ∈ is
      · have member : i ∈ is.toFinset.filter fun i => accepts (vars i) :=
          Finset.mem_filter.mpr ⟨List.mem_toFinset.mpr before, taken⟩
        rw [if_pos before, Finset.insert_eq_of_mem member]
        simp [empty]
      · have new : i ∉ is.toFinset.filter fun i => accepts (vars i) :=
          fun member => before (List.mem_toFinset.mp (Finset.mem_filter.mp member).1)
        rw [if_neg before, Finset.sum_insert new, Nat.add_comm]
        simp
    · rw [if_neg taken, if_neg taken]
      rfl

end Moving

end Ieee1905.Machine
