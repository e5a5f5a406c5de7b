import Std.Data.ExtTreeMap
import Mathlib.Data.List.Flatten
import Mathlib.Data.List.Perm.Subperm
import Mathlib.Data.Prod.Basic

/-!
# Maps as the last write to each key

A map that is written entry by entry holds, under each key, the value that was written
last (`getElem?_insertMany`); its own entries, written again, give it back
(`insertMany_toList`), in the order of the keys. Where the keys are the codes of names, a name reads what was last
written under it or under another name of the same code (`lastWrite_rename`).
-/

namespace Ieee1905.Codec

open Std

universe u v w

section LastWrite

variable {ι : Type w} {κ : Type u} {ν : Type v} [DecidableEq ι] [DecidableEq κ]

/-- The value written last under `k`. -/
def lastWrite (k : κ) (writes : List (κ × ν)) : Option ν :=
  writes.findSomeRev? fun p => if p.1 = k then some p.2 else none

theorem lastWrite_cons (k : κ) (p : κ × ν) (writes : List (κ × ν)) :
    lastWrite k (p :: writes) = (lastWrite k writes).or (if p.1 = k then some p.2 else none) := by
  simp [lastWrite]

theorem lastWrite_eq_none {k : κ} {writes : List (κ × ν)} :
    lastWrite k writes = none ↔ ∀ p ∈ writes, p.1 ≠ k := by
  simp [lastWrite]

theorem lastWrite_append (k : κ) (xs ys : List (κ × ν)) :
    lastWrite k (xs ++ ys) = (lastWrite k ys).or (lastWrite k xs) := by
  simp [lastWrite]

theorem mem_of_lastWrite {k : κ} {v : ν} {writes : List (κ × ν)} (found : lastWrite k writes = some v) :
    (k, v) ∈ writes := by
  induction writes with
  | nil => cases found
  | cons p writes ih =>
    rw [lastWrite_cons] at found
    cases later : lastWrite k writes with
    | some w =>
      rw [later, Option.some_or] at found
      exact List.mem_cons_of_mem p (ih (later.trans found))
    | none =>
      rw [later, Option.none_or] at found
      split at found
      · rename_i hit
        obtain rfl := Option.some.inj found
        rw [← hit]
        exact List.mem_cons_self
      · cases found

/-- Where no key is written twice, every write is the last one to its key. -/
theorem lastWrite_eq_some {writes : List (κ × ν)} (distinct : (writes.map Prod.fst).Nodup) {p : κ × ν} :
    lastWrite p.1 writes = some p.2 ↔ p ∈ writes := by
  refine ⟨mem_of_lastWrite, ?_⟩
  intro member
  induction writes with
  | nil => cases member
  | cons q writes ih =>
    obtain ⟨first, rest⟩ := List.nodup_cons.mp distinct
    rw [lastWrite_cons]
    rcases List.mem_cons.mp member with rfl | later
    · have unwritten : lastWrite p.1 writes = none := by
        apply lastWrite_eq_none.mpr
        intro r other same
        exact first (same ▸ List.mem_map_of_mem other)
      rw [unwritten, if_pos rfl, Option.none_or]
    · rw [ih rest later, Option.some_or]

/-- Then the order of the writes does not matter. -/
theorem lastWrite_perm {xs ys : List (κ × ν)} (perm : xs.Perm ys) (distinct : (xs.map Prod.fst).Nodup) (k : κ) :
    lastWrite k xs = lastWrite k ys := by
  have distinct' : (ys.map Prod.fst).Nodup := (perm.map Prod.fst).nodup_iff.mp distinct
  apply Option.ext
  intro v
  calc lastWrite k xs = some v
      ↔ (k, v) ∈ xs := lastWrite_eq_some distinct (p := (k, v))
    _ ↔ (k, v) ∈ ys := perm.mem_iff
    _ ↔ lastWrite k ys = some v := (lastWrite_eq_some distinct' (p := (k, v))).symm

/-- Only the writes to a key matter to it. -/
theorem lastWrite_filter (k : κ) (writes : List (κ × ν)) :
    lastWrite k (writes.filter fun p => p.1 = k) = lastWrite k writes := by
  induction writes with
  | nil => rfl
  | cons p writes ih =>
    by_cases hit : p.1 = k
    · rw [List.filter_cons, if_pos (decide_eq_true hit), lastWrite_cons, lastWrite_cons, ih]
    · have skipped : ¬ decide (p.1 = k) = true := by simp [hit]
      rw [List.filter_cons, if_neg skipped, ih, lastWrite_cons, if_neg hit, Option.or_none]

/-- A write in front of another one to the same key leaves no trace. -/
theorem lastWrite_overwritten {p q : κ × ν} (same : q.1 = p.1) (k : κ) (pre : List (κ × ν)) {post : List (κ × ν)}
    (later : q ∈ post) : lastWrite k (pre ++ p :: post) = lastWrite k (pre ++ post) := by
  rw [lastWrite_append, lastWrite_append, lastWrite_cons]
  by_cases hit : p.1 = k
  · have written : lastWrite k post ≠ none := by
      intro none
      exact lastWrite_eq_none.mp none q later (same.trans hit)
    obtain ⟨v, found⟩ := Option.ne_none_iff_exists'.mp written
    rw [found, Option.some_or]
  · rw [if_neg hit, Option.or_none]

/-- Reading a code gives what was last written under some name of that code. -/
theorem lastWrite_rename (code : ι → κ) (name : ι) (writes : List (ι × ν)) :
    ∃ name', code name' = code name ∧
      lastWrite (code name) (writes.map fun p => (code p.1, p.2)) = lastWrite name' writes := by
  induction writes with
  | nil => exact ⟨name, rfl, rfl⟩
  | cons p writes ih =>
    obtain ⟨name', same, later⟩ := ih
    cases found : lastWrite name' writes with
    | some value =>
      refine ⟨name', same, ?_⟩
      rw [List.map_cons, lastWrite_cons, lastWrite_cons, later, found]
      rfl
    | none =>
      -- nothing was written under the code later on, so the entry in front decides
      rw [found] at later
      by_cases hit : code p.1 = code name
      · have unnamed : lastWrite p.1 writes = none := by
          rw [lastWrite_eq_none] at later ⊢
          intro q member named
          apply later (code q.1, q.2) (List.mem_map.mpr ⟨q, member, rfl⟩)
          rw [named, hit]
        refine ⟨p.1, hit, ?_⟩
        rw [List.map_cons, lastWrite_cons, lastWrite_cons, later, unnamed, if_pos hit, if_pos rfl]
      · have other : p.1 ≠ name' := by
          rintro rfl
          exact hit same
        refine ⟨name', same, ?_⟩
        rw [List.map_cons, lastWrite_cons, lastWrite_cons, later, found, if_neg hit, if_neg other]

end LastWrite

section Map

variable {κ : Type u} {ν : Type v} [Ord κ] [TransOrd κ]

/-- Every value in the map satisfies `P`. -/
def Everywhere (P : ν → Prop) (m : ExtTreeMap κ ν) : Prop := ∀ (k : κ) (v : ν), m[k]? = some v → P v

theorem Everywhere.empty (P : ν → Prop) : Everywhere P (∅ : ExtTreeMap κ ν) := by
  intro k v found
  simp at found

theorem Everywhere.insert {P : ν → Prop} {m : ExtTreeMap κ ν} (all : Everywhere P m) (k : κ) {v : ν} (new : P v) :
    Everywhere P (m.insert k v) := by
  intro k' v' found
  rw [ExtTreeMap.getElem?_insert] at found
  split at found
  · exact Option.some.inj found ▸ new
  · exact all k' v' found

theorem Everywhere.insertMany {P : ν → Prop} {m : ExtTreeMap κ ν} (all : Everywhere P m) {writes : List (κ × ν)}
    (new : ∀ p ∈ writes, P p.2) : Everywhere P (m.insertMany writes) := by
  induction writes generalizing m with
  | nil =>
    rw [ExtTreeMap.insertMany_nil]
    exact all
  | cons p writes ih =>
    rw [ExtTreeMap.insertMany_cons]
    apply ih (all.insert p.1 (new p List.mem_cons_self))
    intro q member
    exact new q (List.mem_cons_of_mem p member)

variable [LawfulEqOrd κ]

theorem Everywhere.of_mem_toList {P : ν → Prop} {m : ExtTreeMap κ ν} (all : Everywhere P m) {p : κ × ν}
    (member : p ∈ m.toList) : P p.2 :=
  all p.1 p.2 (ExtTreeMap.mem_toList_iff_getElem?_eq_some.mp member)

theorem getElem?_insertMany [DecidableEq κ] (m : ExtTreeMap κ ν) (writes : List (κ × ν)) (k : κ) :
    (m.insertMany writes)[k]? = (lastWrite k writes).or m[k]? := by
  simp [ExtTreeMap.getElem?_insertMany_list, lastWrite]

/-- A map is what its own entries write. -/
theorem insertMany_toList (m : ExtTreeMap κ ν) : (∅ : ExtTreeMap κ ν).insertMany m.toList = m := by
  classical
  apply ExtTreeMap.ext_getElem?
  intro k
  cases entry : m[k]? with
  | some value =>
    have member : (k, value) ∈ m.toList := ExtTreeMap.mem_toList_iff_getElem?_eq_some.mpr entry
    exact ExtTreeMap.getElem?_insertMany_list_of_mem compare_self ExtTreeMap.distinct_keys_toList member
  | none =>
    have unwritten : lastWrite k m.toList = none := by
      apply lastWrite_eq_none.mpr
      rintro ⟨k', value⟩ member rfl
      rw [ExtTreeMap.mem_toList_iff_getElem?_eq_some.mp member] at entry
      cases entry
    rw [getElem?_insertMany, unwritten, ExtTreeMap.getElem?_empty]
    rfl

/-- Writes with the same outcome under every key lead to the same map. -/
theorem insertMany_congr [DecidableEq κ] (m : ExtTreeMap κ ν) {xs ys : List (κ × ν)}
    (same : ∀ k, lastWrite k xs = lastWrite k ys) : m.insertMany xs = m.insertMany ys := by
  apply ExtTreeMap.ext_getElem?
  intro k
  rw [getElem?_insertMany, getElem?_insertMany, same]

/-- Writing on top of a map is laying the map of the writes over it. -/
theorem insertMany_eq_union [DecidableEq κ] (m : ExtTreeMap κ ν) (writes : List (κ × ν)) :
    m.insertMany writes = m ∪ (∅ : ExtTreeMap κ ν).insertMany writes := by
  apply ExtTreeMap.ext_getElem?
  intro k
  rw [ExtTreeMap.getElem?_union, getElem?_insertMany, getElem?_insertMany, ExtTreeMap.getElem?_empty, Option.or_none]

/-- One sequence of writes behind another is one map over another. -/
theorem insertMany_append [DecidableEq κ] (m : ExtTreeMap κ ν) (xs ys : List (κ × ν)) :
    m.insertMany (xs ++ ys) = (m.insertMany xs).insertMany ys := by
  apply ExtTreeMap.ext_getElem?
  intro k
  rw [getElem?_insertMany, getElem?_insertMany, getElem?_insertMany, lastWrite_append, Option.or_assoc]

theorem mem_toList_insertMany [DecidableEq κ] (writes : List (κ × ν)) (p : κ × ν) :
    p ∈ ((∅ : ExtTreeMap κ ν).insertMany writes).toList ↔ lastWrite p.1 writes = some p.2 := by
  have entry := getElem?_insertMany (∅ : ExtTreeMap κ ν) writes p.1
  rw [ExtTreeMap.getElem?_empty, Option.or_none] at entry
  rw [← entry]
  exact ExtTreeMap.mem_toList_iff_getElem?_eq_some

end Map

/-! ## In the order of the keys -/

section Order

variable {κ : Type u} {ν : Type v} [LT κ]

/-- Each key is less than the next. -/
def Increasing (l : List (κ × ν)) : Prop := l.Pairwise fun p q => p.1 < q.1

variable [LE κ] [Ord κ] [LawfulOrderOrd κ] [LawfulOrderLT κ]

theorem ne_of_key_lt {p q : κ × ν} (less : p.1 < q.1) : p.1 ≠ q.1 := by
  intro same
  rw [same, ← compare_eq_lt, compare_self] at less
  cases less

theorem Increasing.nodup {l : List (κ × ν)} (sorted : Increasing l) : l.Nodup := by
  apply List.Pairwise.imp _ sorted
  rintro p q less rfl
  exact ne_of_key_lt less rfl

/-- The members decide the list. -/
theorem Increasing.eq_of_mem_iff {xs ys : List (κ × ν)} (hx : Increasing xs) (hy : Increasing ys)
    (same : ∀ p, p ∈ xs ↔ p ∈ ys) : xs = ys := by
  have perm : xs.Perm ys := (List.perm_ext_iff_of_nodup hx.nodup hy.nodup).mpr same
  apply perm.eq_of_pairwise _ hx hy
  intro p q _ _ less greater
  rw [← compare_eq_lt] at less greater
  rw [OrientedOrd.eq_swap, less] at greater
  cases greater

/-- Increasing keys are distinct. -/
theorem Increasing.nodup_keys {l : List (κ × ν)} (sorted : Increasing l) : (l.map Prod.fst).Nodup := by
  apply List.pairwise_map.mpr
  apply List.Pairwise.imp _ sorted
  intro p q less
  exact ne_of_key_lt less

variable [TransOrd κ]

theorem increasing_toList (m : ExtTreeMap κ ν) : Increasing m.toList := by
  apply List.Pairwise.imp _ m.ordered_keys_toList
  intro p q less
  exact compare_eq_lt.mp less

variable [LawfulEqOrd κ]

/-- The entries of a map are its writes exactly when those came in the order of the keys. -/
theorem toList_insertMany_eq_iff [DecidableEq κ] (writes : List (κ × ν)) :
    ((∅ : ExtTreeMap κ ν).insertMany writes).toList = writes ↔ Increasing writes := by
  constructor
  · intro same
    rw [← same]
    exact increasing_toList _
  · intro sorted
    apply (increasing_toList _).eq_of_mem_iff sorted
    intro p
    rw [mem_toList_insertMany, lastWrite_eq_some sorted.nodup_keys]

/-- The entries of a map are among its writes, each once. -/
theorem length_flatMap_toList_le [DecidableEq κ] {β : Type w} (f : κ × ν → List β) (writes : List (κ × ν)) :
    (((∅ : ExtTreeMap κ ν).insertMany writes).toList.flatMap f).length ≤ (writes.flatMap f).length := by
  have among : ((∅ : ExtTreeMap κ ν).insertMany writes).toList ⊆ writes := by
    intro p entry
    exact mem_of_lastWrite ((mem_toList_insertMany writes p).mp entry)
  obtain ⟨kept, perm, part⟩ := List.subperm_of_subset (increasing_toList _).nodup among
  rw [← (perm.flatMap_right f).length_eq]
  exact (part.flatMap f).length_le

end Order

end Ieee1905.Codec
