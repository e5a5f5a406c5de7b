import Ieee1905.Codec.PrefixCode
import Mathlib.Data.List.TakeWhile

/-!
# Lists that end in a sentinel

A reader that stops at the first element satisfying `stop` sees `cut stop xs`. A writer
that keeps a sentinel last by inserting in front of it (`insertBeforeStop`) controls only
the last position: the sentinel that arrives first ends up last and nothing else moves
(`insertAll_nil_eq`), so any other one stays in the middle, where it cuts off what follows.
`payload_read_iff` says exactly when nothing is lost between the two.
-/

namespace Ieee1905.Codec

universe u v

variable {α : Type u} {β : Type v} (stop : α → Bool)

/-- No element is a sentinel. -/
def Clean (xs : List α) : Prop := ∀ x ∈ xs, stop x = false

/-- The elements that are not sentinels, in order. -/
def payload (xs : List α) : List α := xs.filter fun x => !stop x

/-- What a reader sees that stops right after the first sentinel. -/
def cut (xs : List α) : List α := (xs.takeWhile fun x => !stop x) ++ (xs.find? stop).toList

/-- The last element is a sentinel. -/
def endsInStop (xs : List α) : Bool :=
  match xs.getLast? with
  | some e => stop e
  | none => false

/-- Add an element at the end, but in front of a sentinel that is already there. -/
def insertBeforeStop (xs : List α) (x : α) : List α :=
  if endsInStop stop xs then xs.dropLast ++ x :: xs.getLast?.toList else xs ++ [x]

/-- Add the elements of a list one after the other. -/
def insertAll (xs ys : List α) : List α := ys.foldl (insertBeforeStop stop) xs

/-- The first sentinel moved to the end, everything else in its place. -/
def stopLast (xs : List α) : List α := xs.eraseP stop ++ (xs.find? stop).toList

/-- Close a list that does not end in a sentinel with `z`. -/
def close (z : α) (xs : List α) : List α := if endsInStop stop xs then xs else xs ++ [z]

/-- What stands behind the first sentinel. -/
def behindStop (xs : List α) : List α := (xs.dropWhile fun x => !stop x).tail

/-- A clean list and the sentinel behind it. -/
structure Terminated where
  body : List α
  last : α
  clean : Clean stop body
  isStop : stop last = true

/-- The elements of a terminated list, the sentinel included. -/
def Terminated.toList {stop : α → Bool} (t : Terminated stop) : List α := t.body ++ [t.last]

variable {stop}

theorem Clean.nil : Clean stop ([] : List α) := fun _ member => absurd member List.not_mem_nil

theorem Clean.singleton {x : α} (plain : stop x = false) : Clean stop [x] := by
  intro y member
  rw [List.mem_singleton.mp member]
  exact plain

theorem Clean.of_cons {x : α} {xs : List α} (clean : Clean stop (x :: xs)) : Clean stop xs :=
  fun y member => clean y (List.mem_cons_of_mem x member)

theorem Clean.append {xs ys : List α} (hx : Clean stop xs) (hy : Clean stop ys) :
    Clean stop (xs ++ ys) := by
  intro x member
  rcases List.mem_append.mp member with h | h
  · exact hx x h
  · exact hy x h

/-- A list is clean or splits at its first sentinel. -/
theorem clean_or_split (stop : α → Bool) (xs : List α) :
    Clean stop xs ∨ ∃ pre e post, xs = pre ++ e :: post ∧ Clean stop pre ∧ stop e = true := by
  cases found : xs.find? stop with
  | none =>
    refine .inl fun x member => ?_
    simpa using List.find?_eq_none.mp found x member
  | some e =>
    obtain ⟨holds, pre, post, split, clean⟩ := List.find?_eq_some_iff_append.mp found
    exact .inr ⟨pre, e, post, split, fun x member => by simpa using clean x member, holds⟩

theorem Clean.find?_eq_none {xs : List α} (clean : Clean stop xs) : xs.find? stop = none :=
  List.find?_eq_none.mpr fun x member => by simp [clean x member]

theorem find?_split {pre : List α} {e : α} (clean : Clean stop pre) (isStop : stop e = true) (post : List α) :
    (pre ++ e :: post).find? stop = some e := by
  simp [clean.find?_eq_none, isStop]

/-- Clean lists are those that hold no sentinel. -/
theorem clean_iff_countP {xs : List α} : Clean stop xs ↔ xs.countP stop = 0 := by
  simp [Clean, List.countP_eq_zero]

/-- With one sentinel at most, nothing but plain elements follows it. -/
theorem clean_behind {pre post : List α} {e : α} (isStop : stop e = true) (few : (pre ++ e :: post).countP stop ≤ 1) :
    Clean stop post := by
  rw [List.countP_append, List.countP_cons, if_pos isStop] at few
  apply clean_iff_countP.mpr
  omega

theorem payload_of_clean {xs : List α} (clean : Clean stop xs) : payload stop xs = xs := by
  apply List.filter_eq_self.mpr
  intro x member
  simp [clean x member]

theorem payload_append (xs ys : List α) : payload stop (xs ++ ys) = payload stop xs ++ payload stop ys :=
  List.filter_append xs ys

theorem payload_stop {e : α} (isStop : stop e = true) (xs : List α) : payload stop (e :: xs) = payload stop xs := by
  simp [payload, isStop]

theorem payload_eq_nil_iff {xs : List α} : payload stop xs = [] ↔ ∀ x ∈ xs, stop x = true := by
  simp [payload, List.filter_eq_nil_iff]

/-- In front of any element of a terminated list there is no sentinel. -/
theorem Terminated.clean_front (t : Terminated stop) {pre post : List α} {x : α} (split : t.toList = pre ++ x :: post) :
    Clean stop pre := by
  have front : t.body = pre ++ (x :: post).dropLast := by
    have shorter := congrArg List.dropLast split
    rwa [Terminated.toList, List.dropLast_concat, List.dropLast_append_cons] at shorter
  intro y member
  apply t.clean
  rw [front]
  exact List.mem_append_left _ member

/-! ## Cutting and closing -/

theorem cut_split {pre : List α} {e : α} (clean : Clean stop pre) (isStop : stop e = true) (post : List α) :
    cut stop (pre ++ e :: post) = pre ++ [e] := by
  have before : ((pre ++ e :: post).takeWhile fun x => !stop x) = pre := by
    rw [List.takeWhile_append_of_pos fun x member => by simp [clean x member]]
    simp [isStop]
  rw [cut, before, find?_split clean isStop, Option.toList_some]

theorem endsInStop_concat (xs : List α) (e : α) : endsInStop stop (xs ++ [e]) = stop e := by
  simp [endsInStop]

theorem endsInStop_clean {xs : List α} (clean : Clean stop xs) : endsInStop stop xs = false := by
  unfold endsInStop
  cases last : xs.getLast? with
  | none => rfl
  | some e => exact clean e (List.mem_of_getLast? last)

theorem close_stop {e : α} (isStop : stop e = true) (z : α) (xs : List α) :
    close stop z (xs ++ [e]) = xs ++ [e] := by
  simp [close, endsInStop_concat, isStop]

theorem close_clean {xs : List α} (clean : Clean stop xs) (z : α) : close stop z xs = xs ++ [z] := by
  simp [close, endsInStop_clean clean]

/-- A closed list starts with the terminated list that a reader cuts out of it. -/
theorem close_split {z : α} (isStop : stop z = true) (xs : List α) :
    ∃ (t : Terminated stop) (rest : List α),
      close stop z xs = t.toList ++ rest ∧ cut stop (close stop z xs) = t.toList := by
  rcases clean_or_split stop (close stop z xs) with clean | ⟨pre, e, post, split, clean, first⟩
  · -- impossible: a closed list ends in a sentinel
    exfalso
    have last : endsInStop stop (close stop z xs) = true := by
      unfold close
      split
      · assumption
      · rw [endsInStop_concat, isStop]
    rw [endsInStop_clean clean] at last
    cases last
  · refine ⟨⟨pre, e, clean, first⟩, post, ?_, ?_⟩
    · rw [split]
      simp [Terminated.toList]
    · rw [split]
      exact cut_split clean first post

/-- With no sentinel before the last position, a closed list is terminated as a whole. -/
theorem close_terminated {z : α} (isStop : stop z = true) {xs : List α} (front : Clean stop xs.dropLast) :
    ∃ t : Terminated stop, close stop z xs = t.toList := by
  cases last : xs.getLast? with
  | none =>
    have empty : xs = [] := List.getLast?_eq_none_iff.mp last
    subst empty
    exact ⟨⟨[], z, front, isStop⟩, rfl⟩
  | some e =>
    have split : xs = xs.dropLast ++ [e] := (List.dropLast_append_getLast? e last).symm
    cases isLast : stop e with
    | true =>
      have closed : endsInStop stop xs = true := by
        simp only [endsInStop, last, isLast]
      exact ⟨⟨xs.dropLast, e, front, isLast⟩, (if_pos closed).trans split⟩
    | false =>
      have clean : Clean stop xs := by
        rw [split]
        exact front.append (.singleton isLast)
      exact ⟨⟨xs, z, clean, isStop⟩, close_clean clean z⟩

/-- A closed list ends in a sentinel. -/
theorem exists_close_concat {z : α} (isStop : stop z = true) (xs : List α) :
    ∃ ys e, close stop z xs = ys ++ [e] ∧ stop e = true := by
  cases last : xs.getLast? with
  | none =>
    have empty : xs = [] := List.getLast?_eq_none_iff.mp last
    subst empty
    exact ⟨[], z, rfl, isStop⟩
  | some e =>
    have split : xs = xs.dropLast ++ [e] := (List.dropLast_append_getLast? e last).symm
    have test : endsInStop stop xs = stop e := by rw [endsInStop, last]
    cases isLast : stop e with
    | true => exact ⟨xs.dropLast, e, (if_pos (test.trans isLast)).trans split, isLast⟩
    | false =>
      refine ⟨xs, z, ?_, isStop⟩
      rw [close, test, isLast]
      exact if_neg Bool.false_ne_true

/-- Closing forgets only whether the sentinel that it adds was there. -/
theorem close_eq_close_iff {z : α} (isStop : stop z = true) (xs ys : List α) :
    close stop z xs = close stop z ys ↔
      xs = ys ∨ endsInStop stop xs = false ∧ ys = xs ++ [z] ∨ endsInStop stop ys = false ∧ xs = ys ++ [z] := by
  constructor
  · intro same
    unfold close at same
    cases hx : endsInStop stop xs with
    | true =>
      cases hy : endsInStop stop ys with
      | true =>
        rw [hx, hy] at same
        exact .inl same
      | false =>
        rw [hx, hy] at same
        exact .inr (.inr ⟨rfl, same⟩)
    | false =>
      cases hy : endsInStop stop ys with
      | true =>
        rw [hx, hy] at same
        exact .inr (.inl ⟨rfl, same.symm⟩)
      | false =>
        rw [hx, hy] at same
        exact .inl (List.append_cancel_right same)
  · rintro (rfl | ⟨lacks, rfl⟩ | ⟨lacks, rfl⟩)
    · rfl
    · rw [close_stop isStop, close, lacks]
      exact if_neg Bool.false_ne_true
    · rw [close_stop isStop, close, lacks]
      exact (if_neg Bool.false_ne_true).symm

/-! ## Inserting in front of the sentinel -/

theorem insertBeforeStop_clean {xs : List α} (clean : Clean stop xs) (x : α) :
    insertBeforeStop stop xs x = xs ++ [x] := by
  simp [insertBeforeStop, endsInStop_clean clean]

theorem insertBeforeStop_stop {e : α} (isStop : stop e = true) (xs : List α) (x : α) :
    insertBeforeStop stop (xs ++ [e]) x = xs ++ [x] ++ [e] := by
  simp [insertBeforeStop, endsInStop_concat, isStop]

@[simp] theorem insertAll_nil (xs : List α) : insertAll stop xs [] = xs := rfl

theorem insertAll_append (xs ys zs : List α) :
    insertAll stop xs (ys ++ zs) = insertAll stop (insertAll stop xs ys) zs :=
  List.foldl_append

/-- A sentinel that is last stays last, whatever is added. -/
theorem insertAll_stop {e : α} (isStop : stop e = true) (xs ys : List α) :
    insertAll stop (xs ++ [e]) ys = xs ++ ys ++ [e] := by
  induction ys generalizing xs with
  | nil => simp
  | cons y ys ih =>
    calc insertAll stop (xs ++ [e]) (y :: ys)
        = insertAll stop (insertBeforeStop stop (xs ++ [e]) y) ys := rfl
      _ = insertAll stop ((xs ++ [y]) ++ [e]) ys := by rw [insertBeforeStop_stop isStop]
      _ = (xs ++ [y]) ++ ys ++ [e] := ih (xs ++ [y])
      _ = xs ++ y :: ys ++ [e] := by simp

theorem insertAll_clean {xs ys : List α} (hx : Clean stop xs) (hy : Clean stop ys) :
    insertAll stop xs ys = xs ++ ys := by
  induction ys generalizing xs with
  | nil => simp
  | cons y ys ih =>
    have single : Clean stop [y] := fun z member => hy z (by simp_all)
    have rest : Clean stop ys := fun z member => hy z (by simp [member])
    calc insertAll stop xs (y :: ys)
        = insertAll stop (insertBeforeStop stop xs y) ys := rfl
      _ = insertAll stop (xs ++ [y]) ys := by rw [insertBeforeStop_clean hx]
      _ = xs ++ [y] ++ ys := ih (hx.append single) rest
      _ = xs ++ y :: ys := by simp

/-- Behind a list that does not end in a sentinel, other elements are appended. -/
theorem insertAll_lacking {xs ys : List α} (lacks : endsInStop stop xs = false) (clean : Clean stop ys) :
    insertAll stop xs ys = xs ++ ys ∧ endsInStop stop (xs ++ ys) = false := by
  induction ys generalizing xs with
  | nil =>
    rw [List.append_nil]
    exact ⟨rfl, lacks⟩
  | cons y ys ih =>
    have other : stop y = false := clean y List.mem_cons_self
    have one : insertBeforeStop stop xs y = xs ++ [y] := by simp [insertBeforeStop, lacks]
    have step : insertAll stop xs (y :: ys) = insertAll stop (xs ++ [y]) ys := congrArg (insertAll stop · ys) one
    have assoc : xs ++ [y] ++ ys = xs ++ y :: ys := List.append_cons .. |>.symm
    rw [step, ← assoc]
    exact ih ((endsInStop_concat ..).trans other) clean.of_cons

/-- Adding elements that are no sentinels and closing commute. -/
theorem close_insertAll {z : α} (isStop : stop z = true) (xs : List α) {ys : List α} (clean : Clean stop ys) :
    close stop z (insertAll stop xs ys) = insertAll stop (close stop z xs) ys := by
  cases ends : endsInStop stop xs with
  | true =>
    obtain ⟨front, e, split, isLast⟩ := exists_close_concat isStop xs
    have closed : close stop z xs = xs := if_pos ends
    rw [closed] at split
    rw [closed, split, insertAll_stop isLast, close_stop isLast]
  | false =>
    obtain ⟨appended, lacks⟩ := insertAll_lacking ends clean
    have closed : close stop z xs = xs ++ [z] := by
      rw [close, ends]
      exact if_neg Bool.false_ne_true
    rw [closed, insertAll_stop isStop, appended, close, lacks]
    exact if_neg Bool.false_ne_true

/-- The sentinel that is added first ends up last; nothing else moves. -/
theorem insertAll_first {pre : List α} {e : α} (clean : Clean stop pre) (isStop : stop e = true) (post : List α) :
    insertAll stop [] (pre ++ e :: post) = pre ++ post ++ [e] := by
  calc insertAll stop [] (pre ++ e :: post)
      = insertAll stop (insertAll stop [] pre) (e :: post) := insertAll_append ..
    _ = insertAll stop pre (e :: post) := by rw [insertAll_clean Clean.nil clean, List.nil_append]
    _ = insertAll stop (insertBeforeStop stop pre e) post := rfl
    _ = insertAll stop (pre ++ [e]) post := by rw [insertBeforeStop_clean clean]
    _ = pre ++ post ++ [e] := insertAll_stop isStop pre post

theorem stopLast_clean {xs : List α} (clean : Clean stop xs) : stopLast stop xs = xs := by
  have kept : xs.eraseP stop = xs := List.eraseP_of_forall_not fun x member => by simp [clean x member]
  rw [stopLast, kept, clean.find?_eq_none, Option.toList_none, List.append_nil]

theorem stopLast_split {pre : List α} {e : α} (clean : Clean stop pre) (isStop : stop e = true) (post : List α) :
    stopLast stop (pre ++ e :: post) = pre ++ post ++ [e] := by
  have erased : (pre ++ e :: post).eraseP stop = pre ++ post := by
    rw [List.eraseP_append_right _ fun x member => by simp [clean x member], List.eraseP_cons_of_pos isStop]
  rw [stopLast, erased, find?_split clean isStop, Option.toList_some]

/-- A list with its sentinel at the end is closed as it stands, one without is closed by `z`. -/
theorem close_stopLast (z : α) (xs : List α) :
    close stop z (stopLast stop xs) = stopLast stop xs ++ if xs.any stop then [] else [z] := by
  rcases clean_or_split stop xs with clean | ⟨pre, e, post, rfl, clean, first⟩
  · have none : xs.any stop = false := List.any_eq_false.mpr fun x member => by simp [clean x member]
    rw [stopLast_clean clean, close_clean clean, none]
    rfl
  · have some : (pre ++ e :: post).any stop = true := List.any_eq_true.mpr ⟨e, by simp, first⟩
    rw [stopLast_split clean first, close_stop first, some, if_pos rfl, List.append_nil]

/-- **The closed form** of adding to an empty list. -/
theorem insertAll_nil_eq (ys : List α) : insertAll stop [] ys = stopLast stop ys := by
  rcases clean_or_split stop ys with clean | ⟨pre, e, post, rfl, clean, first⟩
  · rw [insertAll_clean Clean.nil clean, stopLast_clean clean, List.nil_append]
  · rw [insertAll_first clean first, stopLast_split clean first]

/-- Nothing is dropped and nothing doubled. -/
theorem perm_stopLast (xs : List α) : (stopLast stop xs).Perm xs := by
  rcases clean_or_split stop xs with clean | ⟨pre, e, post, rfl, clean, first⟩
  · rw [stopLast_clean clean]
  · have moved : (post ++ [e]).Perm (e :: post) := List.perm_append_comm
    rw [stopLast_split clean first, List.append_assoc]
    exact moved.append_left pre

theorem payload_stopLast (xs : List α) : payload stop (stopLast stop xs) = payload stop xs := by
  rcases clean_or_split stop xs with clean | ⟨pre, e, post, rfl, clean, first⟩
  · rw [stopLast_clean clean]
  · rw [stopLast_split clean first, payload_append, payload_append, payload_append, payload_stop first, payload_stop first]
    exact List.append_nil _

/-- A search that no sentinel satisfies finds the same element. -/
theorem find?_stopLast {p : α → Bool} (apart : ∀ x, stop x = true → p x = false) (xs : List α) :
    (stopLast stop xs).find? p = xs.find? p := by
  rcases clean_or_split stop xs with clean | ⟨pre, e, post, rfl, clean, first⟩
  · rw [stopLast_clean clean]
  · have skipped := apart e first
    rw [stopLast_split clean first]
    simp [List.find?_append, skipped]

/-- Such a search passes over every sentinel. -/
theorem find?_payload {p : α → Bool} (apart : ∀ x, stop x = true → p x = false) (xs : List α) :
    (payload stop xs).find? p = xs.find? p := by
  rw [payload, List.find?_filter]
  congr 1
  funext x
  cases isStop : stop x with
  | true => simp [apart x isStop]
  | false => simp

/-- With a sentinel among them, the first one is last, whatever is added behind. -/
theorem getLast?_stopLast {xs : List α} {e : α} (found : xs.find? stop = some e) (more : List α) :
    (stopLast stop (xs ++ more)).getLast? = some e := by
  have whole : (xs ++ more).find? stop = some e := by rw [List.find?_append, found, Option.some_or]
  rw [stopLast, whole, Option.toList_some, List.getLast?_concat]

/-- A terminated list is what its own elements leave behind. -/
theorem insertAll_terminated (t : Terminated stop) : insertAll stop [] t.toList = t.toList := by
  have run := insertAll_first t.clean t.isStop []
  rwa [List.append_nil] at run

/-! ## What a reader gets back

`close` and `cut` around `insertAll`: a writer adds the elements of `h` one by one, the
list is closed with `z`, and a reader stops at its first sentinel. -/

theorem behindStop_clean {xs : List α} (clean : Clean stop xs) : behindStop stop xs = [] := by
  have all : (xs.dropWhile fun x => !stop x) = [] :=
    List.dropWhile_eq_nil_iff.mpr fun x member => by simp [clean x member]
  rw [behindStop, all, List.tail_nil]

theorem behindStop_split {pre : List α} {e : α} (clean : Clean stop pre) (isStop : stop e = true) (post : List α) :
    behindStop stop (pre ++ e :: post) = post := by
  have before : ((pre ++ e :: post).dropWhile fun x => !stop x) = e :: post := by
    rw [List.dropWhile_append_of_pos fun x member => by simp [clean x member]]
    simp [isStop]
  rw [behindStop, before, List.tail_cons]

theorem read_clean {z : α} (isStop : stop z = true) {h : List α} (clean : Clean stop h) :
    cut stop (close stop z (insertAll stop [] h)) = h ++ [z] := by
  rw [insertAll_clean Clean.nil clean, List.nil_append, close_clean clean]
  exact cut_split clean isStop []

theorem read_first {z e : α} {pre post : List α} (clean : Clean stop pre) (isStop : stop e = true)
    (rest : Clean stop post) :
    cut stop (close stop z (insertAll stop [] (pre ++ e :: post))) = pre ++ post ++ [e] := by
  rw [insertAll_first clean isStop, close_stop isStop]
  exact cut_split (clean.append rest) isStop []

theorem read_second {z e f : α} {pre mid post : List α} (clean : Clean stop pre) (isStop : stop e = true)
    (between : Clean stop mid) (second : stop f = true) :
    cut stop (close stop z (insertAll stop [] (pre ++ e :: (mid ++ f :: post)))) = pre ++ mid ++ [f] := by
  have shape : pre ++ (mid ++ f :: post) ++ [e] = (pre ++ mid) ++ f :: (post ++ [e]) := by simp
  rw [insertAll_first clean isStop, close_stop isStop, shape]
  exact cut_split (clean.append between) second (post ++ [e])

/-- The payload survives exactly when only sentinels were added behind the second sentinel. -/
theorem payload_read_iff {z : α} (isStop : stop z = true) (h : List α) :
    payload stop (cut stop (close stop z (insertAll stop [] h))) = payload stop (insertAll stop [] h) ↔
      ∀ x ∈ behindStop stop (behindStop stop h), stop x = true := by
  rcases clean_or_split stop h with clean | ⟨pre, e, post, rfl, clean, first⟩
  · rw [read_clean isStop clean, insertAll_clean Clean.nil clean, behindStop_clean clean, behindStop_clean Clean.nil]
    simp [payload, isStop]
  · rw [behindStop_split clean first]
    rcases clean_or_split stop post with rest | ⟨mid, f, back, rfl, between, second⟩
    · rw [read_first clean first rest, insertAll_first clean first, behindStop_clean rest]
      simp
    · rw [read_second clean first between second, insertAll_first clean first, behindStop_split between second]
      rw [← payload_eq_nil_iff]
      simp only [payload_append, payload_stop second, payload_stop first, List.append_assoc]
      simp [payload]

/-- The sentinel stands in last position only exactly when at most one was added. -/
theorem stop_last_iff (h : List α) :
    Clean stop (insertAll stop [] h).dropLast ↔ h.countP stop ≤ 1 := by
  rcases clean_or_split stop h with clean | ⟨pre, e, post, rfl, clean, first⟩
  · rw [insertAll_clean Clean.nil clean, List.nil_append]
    have front : Clean stop h.dropLast := fun x member => clean x (List.dropLast_subset h member)
    simp [front, clean_iff_countP.mp clean]
  · rw [insertAll_first clean first, List.dropLast_concat]
    have split : Clean stop (pre ++ post) ↔ Clean stop post :=
      ⟨fun both x member => both x (List.mem_append_right _ member), fun rest => clean.append rest⟩
    rw [split, clean_iff_countP, List.countP_append, clean_iff_countP.mp clean, List.countP_cons]
    simp [first]

/-- Behind a second sentinel there is something only if there are two. -/
theorem behindStop_of_count {h : List α} (few : h.countP stop ≤ 1) : behindStop stop (behindStop stop h) = [] := by
  rcases clean_or_split stop h with clean | ⟨pre, e, post, rfl, clean, first⟩
  · rw [behindStop_clean clean, behindStop_clean Clean.nil]
  · rw [behindStop_split clean first]
    exact behindStop_clean (clean_behind first few)

/-- With at most one sentinel the reader gets the payload and that sentinel, or `z`. -/
theorem read_of_count {z : α} (isStop : stop z = true) {h : List α} (few : h.countP stop ≤ 1) :
    cut stop (close stop z (insertAll stop [] h)) = payload stop h ++ [(h.find? stop).getD z] := by
  rcases clean_or_split stop h with clean | ⟨pre, e, post, rfl, clean, first⟩
  · rw [read_clean isStop clean, payload_of_clean clean, clean.find?_eq_none, Option.getD_none]
  · have rest := clean_behind first few
    rw [read_first clean first rest, find?_split clean first, Option.getD_some, payload_append, payload_stop first,
      payload_of_clean clean, payload_of_clean rest]

/-! ## Terminated sequences as a code -/

namespace PrefixCode

/-- Two terminated sequences in front of the same bytes are the same sequence. -/
theorem split_terminated (C : PrefixCode α β) {e f : α} (he : stop e = true) (hf : stop f = true) {p q : List β} :
    ∀ {xs ys : List α}, Clean stop xs → Clean stop ys →
      C.encAll xs ++ (C.enc e ++ p) = C.encAll ys ++ (C.enc f ++ q) → xs = ys ∧ e = f ∧ p = q := by
  intro xs
  induction xs with
  | nil =>
    intro ys _ hy same
    cases ys with
    | nil => exact ⟨rfl, C.split same⟩
    | cons y ys =>
      -- the sentinel on the left would be an element of the clean list on the right
      rw [encAll_nil, List.nil_append, encAll_cons, List.append_assoc] at same
      obtain ⟨rfl, -⟩ := C.split same
      rw [hy e (by simp)] at he
      cases he
  | cons x xs ih =>
    intro ys hx hy same
    cases ys with
    | nil =>
      rw [encAll_nil, List.nil_append, encAll_cons, List.append_assoc] at same
      obtain ⟨rfl, -⟩ := C.split same
      rw [hx x (by simp)] at hf
      cases hf
    | cons y ys =>
      rw [encAll_cons, encAll_cons, List.append_assoc, List.append_assoc] at same
      obtain ⟨rfl, tail⟩ := C.split same
      have hx' : Clean stop xs := fun z member => hx z (by simp [member])
      have hy' : Clean stop ys := fun z member => hy z (by simp [member])
      obtain ⟨rfl, rest⟩ := ih hx' hy' tail
      exact ⟨rfl, rest⟩

/-- A sequence that ends in a sentinel marks its own end. -/
def terminated (C : PrefixCode α β) (stop : α → Bool) : PrefixCode (Terminated stop) β where
  enc t := C.encAll t.toList
  split {a b p q} same := by
    simp only [Terminated.toList, encAll_append, encAll_cons, encAll_nil, List.append_nil,
      List.append_assoc] at same
    obtain ⟨body, last, rest⟩ := C.split_terminated a.isStop b.isStop a.clean b.clean same
    cases a
    cases b
    cases body
    cases last
    exact ⟨rfl, rest⟩

end PrefixCode

end Ieee1905.Codec
