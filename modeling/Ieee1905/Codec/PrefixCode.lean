import Mathlib.Data.List.Basic
import Mathlib.Logic.Function.Basic

/-!
# Prefix codes

An encoding whose words mark their own end: whatever follows, a word is read back in
one way only. Everything that makes a length-prefixed format well behaved follows from
that one law: the word and the rest of the input are determined (`injective`, `split`),
and an input cut inside its word holds no word (`not_begins_take`). The combinators
build the codes of composite formats and carry the law with them.
-/

namespace Ieee1905.Codec

universe u v w

/-- An encoding of `α` as lists of `β` with self-delimiting words. -/
structure PrefixCode (α : Type u) (β : Type v) where
  enc : α → List β
  split : ∀ {a b : α} {p q : List β}, enc a ++ p = enc b ++ q → a = b ∧ p = q

namespace PrefixCode

variable {α : Type u} {β : Type v}

/-- The input starts with the word of `a`, and `p` follows. -/
def Begins (C : PrefixCode α β) (input : List β) (a : α) (p : List β) : Prop :=
  input = C.enc a ++ p

theorem injective (C : PrefixCode α β) : Function.Injective C.enc := by
  intro a b same
  exact (C.split (p := []) (q := []) (by rw [same])).1

theorem Begins.unique {C : PrefixCode α β} {input : List β} {a b : α} {p q : List β}
    (h : C.Begins input a p) (h' : C.Begins input b q) : a = b ∧ p = q :=
  C.split (h.symm.trans h')

theorem Begins.length {C : PrefixCode α β} {input : List β} {a : α} {p : List β} (h : C.Begins input a p) :
    input.length = (C.enc a).length + p.length := by
  unfold Begins at h
  rw [h, List.length_append]

theorem Begins.append {C : PrefixCode α β} {input : List β} {a : α} {p : List β} (h : C.Begins input a p)
    (q : List β) : C.Begins (input ++ q) a (p ++ q) := by
  unfold Begins at *
  rw [h, List.append_assoc]

/-- The word stays in front when the tail is replaced. -/
theorem Begins.take_append {C : PrefixCode α β} {input : List β} {a : α} {p : List β}
    (h : C.Begins input a p) (q : List β) :
    C.Begins (input.take (C.enc a).length ++ q) a q := by
  unfold Begins at *
  rw [h, List.take_left]

/-- No word starts an input that was cut inside its word: the cut part, put back, would
give the input two readings of different lengths. -/
theorem Begins.not_begins_take {C : PrefixCode α β} {input : List β} {a : α} {p : List β} {m : Nat}
    (h : C.Begins input a p) (cut : m < (C.enc a).length) (b : α) (q : List β) :
    ¬ C.Begins (input.take m) b q := by
  intro word
  have whole : C.Begins input b (q ++ input.drop m) := by
    unfold Begins at *
    rw [← List.append_assoc, ← word, List.take_append_drop]
  obtain ⟨rfl, -⟩ := h.unique whole
  have short := congrArg List.length word
  simp only [List.length_take, List.length_append] at short
  omega

/-! ## Combinators -/

/-- Inputs of a fixed length stand for themselves. -/
def fixed (β : Type v) (n : Nat) : PrefixCode {l : List β // l.length = n} β where
  enc l := l.1
  split {a b _ _} same := by
    obtain ⟨front, back⟩ := List.append_inj same (a.2.trans b.2.symm)
    exact ⟨Subtype.ext front, back⟩

/-- One word after the other. -/
def pair {α' : Type w} (C : PrefixCode α β) (D : PrefixCode α' β) : PrefixCode (α × α') β where
  enc x := C.enc x.1 ++ D.enc x.2
  split {a b _ _} same := by
    rw [List.append_assoc, List.append_assoc] at same
    obtain ⟨first, rest⟩ := C.split same
    obtain ⟨second, rest⟩ := D.split rest
    exact ⟨Prod.ext first second, rest⟩

/-- A word for every value of a type that embeds into the words of another. -/
def comap {α' : Type w} (C : PrefixCode α β) (f : α' → α) (inj : Function.Injective f) :
    PrefixCode α' β where
  enc x := C.enc (f x)
  split same := ⟨inj (C.split same).1, (C.split same).2⟩

/-- Words that start with a symbol of their own. -/
def headed (head : α → β) (inj : Function.Injective head) (rest : α → List β) : PrefixCode α β where
  enc a := head a :: rest a
  split {a b _ _} same := by
    rw [List.cons_append, List.cons_append] at same
    obtain ⟨heads, tails⟩ := List.cons.inj same
    obtain rfl := inj heads
    exact ⟨rfl, List.append_cancel_left tails⟩

/-- A header that announces the length of the body behind it. -/
def lengthPrefixed (H : PrefixCode α β) (len : α → Nat) :
    PrefixCode {x : α × List β // x.2.length = len x.1} β where
  enc x := H.enc x.1.1 ++ x.1.2
  split {a b _ _} same := by
    rw [List.append_assoc, List.append_assoc] at same
    obtain ⟨header, rest⟩ := H.split same
    have size : a.1.2.length = b.1.2.length := by rw [a.2, b.2, header]
    obtain ⟨body, rest⟩ := List.append_inj rest size
    exact ⟨Subtype.ext (Prod.ext header body), rest⟩

/-! ## Sequences of words -/

/-- The words of a list, in order. -/
def encAll (C : PrefixCode α β) (xs : List α) : List β := xs.flatMap C.enc

@[simp] theorem encAll_nil (C : PrefixCode α β) : C.encAll [] = [] := rfl

@[simp] theorem encAll_cons (C : PrefixCode α β) (x : α) (xs : List α) :
    C.encAll (x :: xs) = C.enc x ++ C.encAll xs := rfl

@[simp] theorem encAll_append (C : PrefixCode α β) (xs ys : List α) :
    C.encAll (xs ++ ys) = C.encAll xs ++ C.encAll ys :=
  List.flatMap_append

/-- Where every word takes up space, a sequence of words is read back in one way only. -/
theorem encAll_injective (C : PrefixCode α β) (some : ∀ a, C.enc a ≠ []) : Function.Injective C.encAll := by
  intro xs
  induction xs with
  | nil =>
    intro ys same
    cases ys with
    | nil => rfl
    | cons y ys =>
      rw [encAll_nil, encAll_cons, List.nil_eq, List.append_eq_nil_iff] at same
      exact absurd same.1 (some y)
  | cons x xs ih =>
    intro ys same
    cases ys with
    | nil =>
      rw [encAll_nil, encAll_cons, List.append_eq_nil_iff] at same
      exact absurd same.1 (some x)
    | cons y ys =>
      obtain ⟨rfl, rest⟩ := C.split same
      rw [ih rest]

end PrefixCode

end Ieee1905.Codec
