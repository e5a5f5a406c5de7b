import Mathlib.Data.List.Basic
import Mathlib.Logic.Function.Basic

/-!
# State machines that take turns

A `System` steps from state to state under labels, and `Run` remembers the labels of the way.
What holds at the start and is kept by every step holds behind every run (`Run.invariant`).
`interleave` lets components take turns, in any order that the guard on the whole state
admits; what a component did is a run of its own (`Run.component`), so what was proved of a
component alone holds of it in every interleaving.
-/

namespace Ieee1905.Machine

universe u v w

variable {σ : Type u} {l : Type v} {ι : Type w}

structure System (σ : Type u) (l : Type v) where
  Init : σ → Prop
  Step : σ → l → σ → Prop

namespace System

/-- The labels, oldest first, of a run from an initial state to `s`. -/
inductive Run (S : System σ l) : List l → σ → Prop where
  | init {s : σ} (start : S.Init s) : Run S [] s
  | step {trace : List l} {s s' : σ} {label : l} (before : Run S trace s) (step : S.Step s label s') :
      Run S (trace ++ [label]) s'

/-- **The invariant rule.** -/
theorem Run.invariant {S : System σ l} {Inv : List l → σ → Prop} (init : ∀ s, S.Init s → Inv [] s)
    (step : ∀ trace s label s', S.Run trace s → Inv trace s → S.Step s label s' → Inv (trace ++ [label]) s')
    {trace : List l} {s : σ} (run : S.Run trace s) : Inv trace s := by
  induction run with
  | init start => exact init _ start
  | step before taken ih => exact step _ _ _ _ before ih taken

/-- One component steps at a time, where `Guard` admits it; the others stay as they are. -/
def interleave (S : ι → System σ l) (Guard : (ι → σ) → ι → l → Prop) : System (ι → σ) (ι × l) where
  Init s := ∀ i, (S i).Init (s i)
  Step s label s' := Guard s label.1 label.2 ∧ (S label.1).Step (s label.1) label.2 (s' label.1) ∧
    ∀ i, i ≠ label.1 → s' i = s i

variable [DecidableEq ι]

theorem turn {S : ι → System σ l} {Guard : (ι → σ) → ι → l → Prop} {s : ι → σ} {i : ι} {label : l} {x : σ}
    (admitted : Guard s i label) (step : (S i).Step (s i) label x) :
    (interleave S Guard).Step s (i, label) (Function.update s i x) := by
  refine ⟨admitted, ?_, ?_⟩
  · rw [Function.update_self]
    exact step
  · intro j other
    exact Function.update_of_ne other x s

/-- The part of a trace that component `i` took. -/
def own (i : ι) (trace : List (ι × l)) : List l := (trace.filter fun label => label.1 = i).map Prod.snd

theorem own_append (i : ι) (trace trace' : List (ι × l)) : own i (trace ++ trace') = own i trace ++ own i trace' := by
  rw [own, List.filter_append, List.map_append]
  rfl

theorem own_self (i : ι) (label : l) : own i [(i, label)] = [label] := by simp [own]

theorem own_other {i j : ι} (other : j ≠ i) (label : l) : own i [(j, label)] = [] := by simp [own, other]

theorem mem_own {i : ι} {trace : List (ι × l)} {label : l} : label ∈ own i trace ↔ (i, label) ∈ trace := by
  simp [own]

/-- **What a component does in an interleaving is a run of that component.** -/
theorem Run.component {S : ι → System σ l} {Guard : (ι → σ) → ι → l → Prop} {trace : List (ι × l)} {s : ι → σ}
    (run : (interleave S Guard).Run trace s) (i : ι) : (S i).Run (own i trace) (s i) := by
  induction run with
  | init start => exact .init (start i)
  | @step trace s s' label before taken ih =>
    obtain ⟨j, label⟩ := label
    obtain ⟨-, moved, kept⟩ := taken
    rw [own_append]
    by_cases turn : j = i
    · subst turn
      rw [own_self]
      exact ih.step moved
    · rw [own_other turn, List.append_nil, kept i (Ne.symm turn)]
      exact ih

end System

end Ieee1905.Machine
