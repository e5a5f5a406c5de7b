import Ieee1905.Codec.Sentinel

/-!
# How an input divides into words

A reader takes words from the front of its input until it meets a sentinel, the end, or bytes
that start with no word. `Divides` says behind which words it stops and at which of the three.
Every input divides (`exists_divides`) and in one way only (`Divides.unique`), so what a reader
does with it can be stated case by case and no case overlaps another. An input that is cut
somewhere divides up to the word that the cut is in (`divides_take`).
-/

namespace Ieee1905.Codec

universe u v

variable {α : Type u} {β : Type v}

/-- What stands behind the words. -/
inductive Ending (α : Type u) (β : Type v) where
  | done
  | sentinel (e : α) (rest : List β)
  | broken (tail : List β)

def Ending.bytes (C : PrefixCode α β) : Ending α β → List β
  | done => []
  | sentinel e rest => C.enc e ++ rest
  | broken tail => tail

/-- Some bytes are there, and no word starts them. -/
structure Broken (C : PrefixCode α β) (tail : List β) : Prop where
  more : tail ≠ []
  noWord : ∀ a rest, tail ≠ C.enc a ++ rest

def Ending.Valid (C : PrefixCode α β) (stop : α → Bool) : Ending α β → Prop
  | done => True
  | sentinel e _ => stop e = true
  | broken tail => Broken C tail

/-- `input` is `words`, none of them a sentinel, and then `ending`. -/
structure Divides (C : PrefixCode α β) (stop : α → Bool) (input : List β) (words : List α) (ending : Ending α β) :
    Prop where
  clean : Clean stop words
  split : input = C.encAll words ++ ending.bytes C
  valid : ending.Valid C stop

section

variable {C : PrefixCode α β} {stop : α → Bool}

/-- A word in front of a divided input is one more word. -/
theorem Divides.cons {input : List β} {words : List α} {ending : Ending α β} (d : Divides C stop input words ending)
    {a : α} (plain : stop a = false) : Divides C stop (C.enc a ++ input) (a :: words) ending where
  clean := by
    intro x member
    rcases List.mem_cons.mp member with rfl | later
    · exact plain
    · exact d.clean x later
  split := by rw [d.split, PrefixCode.encAll_cons, List.append_assoc]
  valid := d.valid

/-- What divides up to its end goes on with what is appended. -/
theorem Divides.append {input more : List β} {words words' : List α} {ending : Ending α β}
    (d : Divides C stop input words .done) (d' : Divides C stop more words' ending) :
    Divides C stop (input ++ more) (words ++ words') ending where
  clean := d.clean.append d'.clean
  split := by
    have front : input = C.encAll words := d.split.trans (List.append_nil _)
    rw [front, d'.split, PrefixCode.encAll_append, List.append_assoc]
  valid := d'.valid

variable (some : ∀ a, C.enc a ≠ [])

include some

/-- **Every input divides.** The induction is on the length of the input: each word takes some
of it. -/
theorem exists_divides (stop : α → Bool) (input : List β) : ∃ words ending, Divides C stop input words ending := by
  induction size : input.length using Nat.strong_induction_on generalizing input with
  | _ n ih =>
    by_cases more : input = []
    · exact ⟨[], .done, Clean.nil, more, trivial⟩
    by_cases word : ∃ a rest, input = C.enc a ++ rest
    · obtain ⟨a, rest, rfl⟩ := word
      cases isStop : stop a with
      | true => exact ⟨[], .sentinel a rest, Clean.nil, rfl, isStop⟩
      | false =>
        have taken := List.length_pos_iff.mpr (some a)
        have shorter : rest.length < n := by
          rw [List.length_append] at size
          omega
        obtain ⟨words, ending, d⟩ := ih rest.length shorter rest rfl
        exact ⟨a :: words, ending, d.cons isStop⟩
    · exact ⟨[], .broken input, Clean.nil, rfl, more, fun a rest split => word ⟨a, rest, split⟩⟩

/-- No further word stands where the words end. -/
theorem Ending.Valid.not_word {ending : Ending α β} (valid : ending.Valid C stop) {a : α} (plain : stop a = false)
    (rest : List β) : ending.bytes C ≠ C.enc a ++ rest := by
  intro same
  cases ending with
  | done => exact some a (List.append_eq_nil_iff.mp same.symm).1
  | sentinel e behind =>
    obtain ⟨rfl, -⟩ := C.split same
    have isStop : stop e = true := valid
    rw [plain] at isStop
    cases isStop
  | broken tail => exact valid.noWord a rest same

theorem Ending.Valid.unique {e f : Ending α β} (he : e.Valid C stop) (hf : f.Valid C stop)
    (same : e.bytes C = f.bytes C) : e = f := by
  cases e with
  | done =>
    cases f with
    | done => rfl
    | sentinel b rest => exact (some b (List.append_eq_nil_iff.mp same.symm).1).elim
    | broken tail => exact (hf.more same.symm).elim
  | sentinel a rest =>
    cases f with
    | done => exact (some a (List.append_eq_nil_iff.mp same).1).elim
    | sentinel b rest' =>
      obtain ⟨rfl, rfl⟩ := C.split same
      rfl
    | broken tail => exact (hf.noWord a rest same.symm).elim
  | broken tail =>
    cases f with
    | done => exact (he.more same).elim
    | sentinel b rest => exact (he.noWord b rest same).elim
    | broken tail' => exact congrArg Ending.broken same

theorem words_unique {words words' : List α} (clean : Clean stop words) (clean' : Clean stop words') {e f : Ending α β}
    (he : e.Valid C stop) (hf : f.Valid C stop)
    (same : C.encAll words ++ e.bytes C = C.encAll words' ++ f.bytes C) : words = words' ∧ e = f := by
  induction words generalizing words' with
  | nil =>
    cases words' with
    | nil => exact ⟨rfl, he.unique some hf same⟩
    | cons b words' =>
      rw [PrefixCode.encAll_cons, List.append_assoc] at same
      exact (he.not_word some (clean' b List.mem_cons_self) _ same).elim
  | cons a words ih =>
    cases words' with
    | nil =>
      rw [PrefixCode.encAll_cons, List.append_assoc] at same
      exact (hf.not_word some (clean a List.mem_cons_self) _ same.symm).elim
    | cons b words' =>
      rw [PrefixCode.encAll_cons, PrefixCode.encAll_cons, List.append_assoc, List.append_assoc] at same
      obtain ⟨rfl, rest⟩ := C.split same
      obtain ⟨rfl, ending⟩ := ih clean.of_cons clean'.of_cons rest
      exact ⟨rfl, ending⟩

/-- **An input divides in one way only.** -/
theorem Divides.unique {input : List β} {words words' : List α} {e f : Ending α β} (d : Divides C stop input words e)
    (d' : Divides C stop input words' f) : words = words' ∧ e = f :=
  words_unique some d.clean d'.clean d.valid d'.valid (d.split.symm.trans d'.split)

end

/-! ## Cut inputs -/

section Cut

variable {C : PrefixCode α β}

/-- A position inside a sequence of words is inside one of them. -/
theorem exists_cut {xs : List α} {n : Nat} (inside : n < (C.encAll xs).length) :
    ∃ pre a post k, xs = pre ++ a :: post ∧ k < (C.enc a).length ∧ n = (C.encAll pre).length + k := by
  induction xs generalizing n with
  | nil => exact absurd inside (Nat.not_lt_zero n)
  | cons x xs ih =>
    rcases Nat.lt_or_ge n (C.enc x).length with first | behind
    · exact ⟨[], x, xs, n, rfl, first, (Nat.zero_add n).symm⟩
    · rw [PrefixCode.encAll_cons, List.length_append] at inside
      obtain ⟨pre, a, post, k, rfl, within, place⟩ := ih (n := n - (C.enc x).length) (by omega)
      refine ⟨x :: pre, a, post, k, rfl, within, ?_⟩
      rw [PrefixCode.encAll_cons, List.length_append]
      omega

/-- A part of a word is no word. -/
theorem broken_take {a : α} {k : Nat} (some : 0 < k) (inside : k < (C.enc a).length) : Broken C ((C.enc a).take k) where
  more := by
    apply List.ne_nil_of_length_pos
    rw [List.length_take]
    omega
  noWord := by
    intro b rest word
    have whole : C.Begins (C.enc a) a [] := (List.append_nil _).symm
    exact whole.not_begins_take inside b rest word

/-- Cut behind `k` units of the word of `a`, the input ends between two words or in a part of
one. -/
theorem divides_take {stop : α → Bool} {pre : List α} (clean : Clean stop pre) {a : α} {k : Nat}
    (inside : k < (C.enc a).length) (rest : List β) :
    Divides C stop ((C.encAll pre ++ (C.enc a ++ rest)).take ((C.encAll pre).length + k)) pre
      (if k = 0 then .done else .broken ((C.enc a).take k)) := by
  have front : (C.encAll pre ++ (C.enc a ++ rest)).take ((C.encAll pre).length + k) = C.encAll pre ++ (C.enc a).take k := by
    rw [List.take_length_add_append, List.take_append_of_le_length (Nat.le_of_lt inside)]
  rw [front]
  rcases Nat.eq_zero_or_pos k with rfl | some
  · exact ⟨clean, rfl, trivial⟩
  · rw [if_neg (Nat.pos_iff_ne_zero.mp some)]
    exact ⟨clean, rfl, broken_take some inside⟩

end Cut

end Ieee1905.Codec
