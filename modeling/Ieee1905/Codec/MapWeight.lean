import Ieee1905.Codec.LastWrite
import Mathlib.Algebra.BigOperators.Group.List.Basic
import Mathlib.Algebra.Ring.Nat

/-!
# What a map weighs

Each entry of a map weighs something for itself and something for its value. Writing never makes
a map have fewer entries; so no writes bring a map below the weight of its entries alone, nor
below that and the value under a key that they leave alone (`weight_insertMany_ge`), and erasing
all other values reaches that bound (`weight_blanked_le`).
-/

namespace Ieee1905.Codec

open Std

universe u v

section Sum

variable {κ : Type u} {ν : Type v} {len : ν → ℕ}

/-- Among distinct keys, where only the value under `k` has a length. -/
theorem sum_le_of_blank [DecidableEq κ] {l : List (κ × ν)} (distinct : (l.map Prod.fst).Nodup) {k : κ} {b : ℕ}
    (bound : ∀ p ∈ l, p.1 = k → len p.2 ≤ b) (blank : ∀ p ∈ l, p.1 ≠ k → len p.2 = 0) :
    (l.map fun p => len p.2).sum ≤ b := by
  induction l with
  | nil => exact Nat.zero_le b
  | cons p l ih =>
    obtain ⟨first, rest⟩ := List.nodup_cons.mp distinct
    have later := ih rest (fun q member => bound q (List.mem_cons_of_mem p member))
      (fun q member => blank q (List.mem_cons_of_mem p member))
    rw [List.map_cons, List.sum_cons]
    by_cases hit : p.1 = k
    · have zero : (l.map fun q => len q.2).sum = 0 := by
        apply List.sum_eq_zero
        intro n member
        obtain ⟨q, inside, rfl⟩ := List.mem_map.mp member
        apply blank q (List.mem_cons_of_mem p inside)
        rintro same
        exact first (hit.trans same.symm ▸ List.mem_map_of_mem inside)
      have here := bound p List.mem_cons_self hit
      omega
    · have here := blank p List.mem_cons_self hit
      omega

end Sum

variable {κ : Type u} {ν : Type v} [Ord κ] [TransOrd κ]

/-- `c` for each entry, and the length of its value. -/
def weight (c : ℕ) (len : ν → ℕ) (m : ExtTreeMap κ ν) : ℕ := (m.toList.map fun p => c + len p.2).sum

/-- What the entries weigh, and the value under `k` alone. -/
def bare (c : ℕ) (len : ν → ℕ) (m : ExtTreeMap κ ν) (k : κ) : ℕ := c * m.size + (m[k]?.map len).getD 0

variable {c : ℕ} {len : ν → ℕ}

theorem weight_eq (m : ExtTreeMap κ ν) : weight c len m = c * m.size + (m.toList.map fun p => len p.2).sum := by
  rw [weight, List.sum_map_add, List.map_const', List.sum_replicate_nat, ExtTreeMap.length_toList, Nat.mul_comm]

variable [LawfulEqOrd κ]

theorem bare_le_weight (m : ExtTreeMap κ ν) (k : κ) : bare c len m k ≤ weight c len m := by
  rw [weight_eq, bare]
  apply Nat.add_le_add_left
  cases entry : m[k]? with
  | none => exact Nat.zero_le _
  | some v =>
    have member : (k, v) ∈ m.toList := ExtTreeMap.mem_toList_iff_getElem?_eq_some.mpr entry
    obtain ⟨front, back, split⟩ := List.append_of_mem member
    rw [split, List.map_append, List.map_cons, List.sum_append, List.sum_cons]
    show len v ≤ _ + (len v + _)
    omega

/-- **A lower bound for all that is written later**, under other keys than `k`. -/
theorem weight_insertMany_ge [DecidableEq κ] (m : ExtTreeMap κ ν) {writes : List (κ × ν)} {k : κ}
    (kept : lastWrite k writes = none) : bare c len m k ≤ weight c len (m.insertMany writes) := by
  have entry := getElem?_insertMany m writes k
  rw [kept, Option.none_or] at entry
  have grown : m.size ≤ (m.insertMany writes).size := ExtTreeMap.size_le_size_insertMany_list
  have more := Nat.mul_le_mul_left c grown
  have bound : bare c len (m.insertMany writes) k ≤ weight c len (m.insertMany writes) := bare_le_weight _ k
  rw [bare, entry] at bound
  rw [bare]
  omega

/-! ## Erasing values -/

variable [LT κ] [LE κ] [LawfulOrderOrd κ] [LawfulOrderLT κ]

/-- Maps with entries under the same keys have as many. -/
theorem size_eq_of_keys {m m' : ExtTreeMap κ ν} (same : ∀ k : κ, m[k]?.isSome = m'[k]?.isSome) : m.size = m'.size := by
  have mem_keys (m : ExtTreeMap κ ν) (k : κ) : k ∈ m.toList.map Prod.fst ↔ m[k]?.isSome := by
    rw [List.mem_map, Option.isSome_iff_exists]
    constructor
    · rintro ⟨⟨k', v⟩, member, rfl⟩
      exact ⟨v, ExtTreeMap.mem_toList_iff_getElem?_eq_some.mp member⟩
    · rintro ⟨v, entry⟩
      exact ⟨(k, v), ExtTreeMap.mem_toList_iff_getElem?_eq_some.mpr entry, rfl⟩
  have perm : (m.toList.map Prod.fst).Perm (m'.toList.map Prod.fst) := by
    apply (List.perm_ext_iff_of_nodup (increasing_toList m).nodup_keys (increasing_toList m').nodup_keys).mpr
    intro k
    rw [mem_keys, mem_keys, same]
  have lengths := perm.length_eq
  rwa [List.length_map, List.length_map, ExtTreeMap.length_toList, ExtTreeMap.length_toList] at lengths

variable [DecidableEq κ]

/-- Writes that erase every value but the one under `k`. -/
def blanks (m : ExtTreeMap κ ν) (k : κ) (zero : ν) : List (κ × ν) :=
  (m.toList.filter fun p => p.1 ≠ k).map fun p => (p.1, zero)

theorem lastWrite_blanks (m : ExtTreeMap κ ν) (k : κ) (zero : ν) {k' : κ} {v : ν} :
    lastWrite k' (blanks m k zero) = some v ↔ k' ≠ k ∧ (∃ w, m[k']? = some w) ∧ v = zero := by
  have keys : (blanks m k zero).map Prod.fst = (m.toList.filter fun p => p.1 ≠ k).map Prod.fst := by
    rw [blanks, List.map_map]
    rfl
  have distinct : ((blanks m k zero).map Prod.fst).Nodup := by
    rw [keys]
    exact (increasing_toList m).nodup_keys.sublist (List.filter_sublist.map Prod.fst)
  rw [lastWrite_eq_some distinct (p := (k', v)), blanks, List.mem_map]
  constructor
  · rintro ⟨p, member, same⟩
    obtain ⟨rfl, rfl⟩ := Prod.mk.inj same
    obtain ⟨inside, other⟩ := List.mem_filter.mp member
    exact ⟨of_decide_eq_true other, ⟨p.2, ExtTreeMap.mem_toList_iff_getElem?_eq_some.mp inside⟩, rfl⟩
  · rintro ⟨other, ⟨w, entry⟩, rfl⟩
    have inside : (k', w) ∈ m.toList := ExtTreeMap.mem_toList_iff_getElem?_eq_some.mpr entry
    exact ⟨(k', w), List.mem_filter.mpr ⟨inside, decide_eq_true other⟩, rfl⟩

theorem getElem?_blanked (m : ExtTreeMap κ ν) (k : κ) (zero : ν) (k' : κ) :
    (m.insertMany (blanks m k zero))[k']? = if k' = k then m[k]? else m[k']?.map fun _ => zero := by
  rw [getElem?_insertMany]
  cases written : lastWrite k' (blanks m k zero) with
  | some v =>
    obtain ⟨other, ⟨w, entry⟩, rfl⟩ := (lastWrite_blanks m k zero).mp written
    rw [if_neg other, entry]
    rfl
  | none =>
    rw [Option.none_or]
    by_cases same : k' = k
    · rw [if_pos same, same]
    · rw [if_neg same]
      cases entry : m[k']? with
      | none => rfl
      | some w =>
        have erased := (lastWrite_blanks m k zero).mpr ⟨same, ⟨w, entry⟩, rfl⟩
        rw [written] at erased
        cases erased

theorem size_blanked (m : ExtTreeMap κ ν) (k : κ) (zero : ν) : (m.insertMany (blanks m k zero)).size = m.size := by
  apply size_eq_of_keys
  intro k'
  rw [getElem?_blanked]
  by_cases same : k' = k
  · rw [if_pos same, same]
  · rw [if_neg same, Option.isSome_map]

/-- **The bound is reached.** -/
theorem weight_blanked_le (m : ExtTreeMap κ ν) (k : κ) {zero : ν} (empty : len zero = 0) :
    weight c len (m.insertMany (blanks m k zero)) ≤ bare c len m k := by
  rw [weight_eq, bare, size_blanked]
  apply Nat.add_le_add_left
  apply sum_le_of_blank (increasing_toList _).nodup_keys
  · rintro ⟨k', v⟩ member hit
    have entry := ExtTreeMap.mem_toList_iff_getElem?_eq_some.mp member
    rw [getElem?_blanked, if_pos hit] at entry
    rw [entry]
    exact Nat.le_refl _
  · rintro ⟨k', v⟩ member other
    have entry := ExtTreeMap.mem_toList_iff_getElem?_eq_some.mp member
    rw [getElem?_blanked, if_neg other] at entry
    obtain ⟨w, -, rfl⟩ := Option.map_eq_some_iff.mp entry
    exact empty

end Ieee1905.Codec
