import Ieee1905.Codec.Sentinel

/-!
# Terminated lists that grow

A reader takes a terminated list, a writer inserts elements in front of its sentinel, and the
next reader cuts at the first one: that is one extension (`toList_extend`). However many there
are, only the elements in front of the first sentinel of each extension survive, and the last
sentinel that was inserted replaces the one before (`body_foldl_extend`, `last_foldl_extend`);
without sentinels everything survives (`toList_foldl_extend_clean`).
-/

namespace Ieee1905.Codec

universe u v w

variable {α : Type u} {stop : α → Bool}

/-- The elements in front of the first sentinel. -/
def beforeStop (stop : α → Bool) (xs : List α) : List α := xs.takeWhile fun x => !stop x

theorem clean_beforeStop (xs : List α) : Clean stop (beforeStop stop xs) := by
  intro x member
  simpa using List.mem_takeWhile_imp member

theorem beforeStop_clean {xs : List α} (clean : Clean stop xs) : beforeStop stop xs = xs :=
  List.takeWhile_eq_self_iff.mpr fun x member => by simp [clean x member]

/-- Looking from the back through the images of a list. -/
theorem findSomeRev?_map {β : Type v} {γ : Type w} (f : β → Option γ) (g : α → β) (xs : List α) :
    (xs.map g).findSomeRev? f = xs.findSomeRev? fun x => f (g x) := by
  rw [List.findSomeRev?_eq_findSome?_reverse, List.findSomeRev?_eq_findSome?_reverse, ← List.map_reverse, List.findSome?_map]
  rfl

namespace Terminated

/-- `t` with `xs` inserted, as the next reader sees it. -/
def extend (t : Terminated stop) (xs : List α) : Terminated stop where
  body := t.body ++ beforeStop stop xs
  last := (xs.find? stop).getD t.last
  clean := t.clean.append (clean_beforeStop xs)
  isStop := by
    cases found : xs.find? stop with
    | none => exact t.isStop
    | some e => exact List.find?_some found

@[simp] theorem body_extend (t : Terminated stop) (xs : List α) : (t.extend xs).body = t.body ++ beforeStop stop xs := rfl

@[simp] theorem last_extend (t : Terminated stop) (xs : List α) : (t.extend xs).last = (xs.find? stop).getD t.last := rfl

/-- **One extension** is what inserting, closing and cutting do. -/
theorem toList_extend (t : Terminated stop) (xs : List α) (z : α) :
    cut stop (close stop z (insertAll stop t.toList xs)) = (t.extend xs).toList := by
  have inserted : insertAll stop t.toList xs = t.body ++ xs ++ [t.last] := insertAll_stop t.isStop t.body xs
  rw [inserted, close_stop t.isStop]
  rcases clean_or_split stop xs with clean | ⟨pre, e, post, rfl, clean, first⟩
  · have last : (t.extend xs).last = t.last := by rw [last_extend, clean.find?_eq_none, Option.getD_none]
    rw [cut_split (t.clean.append clean) t.isStop, toList, last]
    exact congrArg (fun ys => t.body ++ ys ++ [t.last]) (beforeStop_clean clean).symm
  · have shape : t.body ++ (pre ++ e :: post) ++ [t.last] = (t.body ++ pre) ++ e :: (post ++ [t.last]) := by simp
    have last : (t.extend (pre ++ e :: post)).last = e := by rw [last_extend, find?_split clean first, Option.getD_some]
    have front : beforeStop stop (pre ++ e :: post) = pre := by
      rw [beforeStop, List.takeWhile_append_of_pos fun x member => by simp [clean x member]]
      simp [first]
    rw [shape, cut_split (t.clean.append clean) first, toList, last]
    exact congrArg (fun ys => t.body ++ ys ++ [e]) front.symm

/-- Every extension adds its own elements, in the order of the extensions. -/
theorem body_foldl_extend (t : Terminated stop) (xss : List (List α)) :
    (xss.foldl extend t).body = t.body ++ xss.flatMap (beforeStop stop) := by
  induction xss generalizing t with
  | nil => exact (List.append_nil _).symm
  | cons xs xss ih =>
    rw [List.foldl_cons, ih, body_extend, List.flatMap_cons, List.append_assoc]

/-- The sentinel of the last extension that has one is the one that stays. -/
theorem last_foldl_extend (t : Terminated stop) (xss : List (List α)) :
    (xss.foldl extend t).last = (xss.findSomeRev? (List.find? stop)).getD t.last := by
  induction xss generalizing t with
  | nil => rfl
  | cons xs xss ih =>
    rw [List.foldl_cons, ih, last_extend, List.findSomeRev?]
    cases xss.findSomeRev? (List.find? stop) <;> rfl

/-- Extensions without a sentinel all survive. -/
theorem toList_foldl_extend_clean (t : Terminated stop) {xss : List (List α)} (clean : ∀ xs ∈ xss, Clean stop xs) :
    (xss.foldl extend t).toList = t.body ++ xss.flatten ++ [t.last] := by
  induction xss generalizing t with
  | nil => rw [List.flatten_nil, List.append_nil, List.foldl_nil, toList]
  | cons xs xss ih =>
    have first := clean xs List.mem_cons_self
    have rest := ih (t.extend xs) fun ys member => clean ys (List.mem_cons_of_mem xs member)
    rw [List.foldl_cons, rest, body_extend, last_extend, beforeStop_clean first, first.find?_eq_none, Option.getD_none,
      List.flatten_cons, List.append_assoc t.body]

section Search

variable {p : α → Bool} (plain : ∀ x, stop x = true → p x = false)

include plain

/-- A search for what no sentinel is does not see the sentinel. -/
theorem find?_toList (t : Terminated stop) : t.toList.find? p = t.body.find? p := by
  rw [toList, List.find?_append, List.find?_cons, plain t.last t.isStop, List.find?_nil, Option.or_none]

/-- It finds what the earliest extension put there. -/
theorem find?_foldl_extend (t : Terminated stop) (xss : List (List α)) :
    (xss.foldl extend t).toList.find? p = (t.toList.find? p).or (xss.findSome? fun xs => (beforeStop stop xs).find? p) := by
  rw [find?_toList plain, find?_toList plain, body_foldl_extend, List.find?_append, List.find?_flatMap]

end Search

end Terminated

end Ieee1905.Codec
