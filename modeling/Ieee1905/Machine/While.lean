import Mathlib.Order.Basic

/-!
# A while loop with `break` and exceptions

`whileLoop` iterates a body that may fall through to the next test, leave the loop or
throw. Fuel bounds the number of tests; `whileLoop_rule` removes it: a loop with an
invariant and a rank that every completed iteration lowers ends before fuel above the
rank is used up, in a state (or an exception) that satisfies the postcondition. `Iterates`
counts the completed iterations without fuel, and a loop whose count is bounded ends the
way its source does (`whileLoop_ends`).
-/

namespace Ieee1905.Machine

universe u v

/-- How an iteration ends that does not throw. -/
inductive Flow (σ : Type u) where
  /-- The body is done; the test comes next. -/
  | next (s : σ)
  /-- `break`. -/
  | leave (s : σ)

variable {σ : Type u} {ε : Type v}

/-- `while (cond) body`, with `exhausted` when the fuel runs out. -/
def whileLoop (exhausted : ε) (cond : σ → Bool) (body : σ → Except ε (Flow σ)) : Nat → σ → Except ε σ
  | 0, _ => .error exhausted
  | fuel + 1, s =>
    if cond s then
      match body s with
      | .ok (.next s') => whileLoop exhausted cond body fuel s'
      | .ok (.leave s') => .ok s'
      | .error e => .error e
    else .ok s

variable {exhausted : ε} {cond : σ → Bool} {body : σ → Except ε (Flow σ)}

theorem whileLoop_exit {s : σ} (test : cond s = false) (fuel : Nat) :
    whileLoop exhausted cond body (fuel + 1) s = .ok s := by
  simp [whileLoop, test]

theorem whileLoop_next {s s' : σ} (test : cond s = true) (run : body s = .ok (.next s')) (fuel : Nat) :
    whileLoop exhausted cond body (fuel + 1) s = whileLoop exhausted cond body fuel s' := by
  simp [whileLoop, test, run]

theorem whileLoop_leave {s s' : σ} (test : cond s = true) (run : body s = .ok (.leave s')) (fuel : Nat) :
    whileLoop exhausted cond body (fuel + 1) s = .ok s' := by
  simp [whileLoop, test, run]

theorem whileLoop_throw {s : σ} {e : ε} (test : cond s = true) (run : body s = .error e) (fuel : Nat) :
    whileLoop exhausted cond body (fuel + 1) s = .error e := by
  simp [whileLoop, test, run]

/-- What one iteration owes: the invariant and a smaller rank where the loop goes on, the
postcondition where it ends. -/
def IterationOk (Inv : σ → Prop) (μ : σ → Nat) (Post : Except ε σ → Prop) (s : σ) :
    Except ε (Flow σ) → Prop
  | .ok (.next s') => Inv s' ∧ μ s' < μ s
  | .ok (.leave s') => Post (.ok s')
  | .error e => Post (.error e)

/-- **The loop rule**, for total correctness with exceptions. -/
theorem whileLoop_rule (Inv : σ → Prop) (μ : σ → Nat) (Post : Except ε σ → Prop)
    (done : ∀ s, Inv s → cond s = false → Post (.ok s))
    (step : ∀ s, Inv s → cond s = true → IterationOk Inv μ Post s (body s)) :
    ∀ fuel s, Inv s → μ s < fuel → Post (whileLoop exhausted cond body fuel s) := by
  intro fuel
  induction fuel with
  | zero =>
    intro s _ less
    omega
  | succ fuel ih =>
    intro s inv less
    cases test : cond s with
    | false =>
      rw [whileLoop_exit test]
      exact done s inv test
    | true =>
      have owed := step s inv test
      cases run : body s with
      | error e =>
        rw [whileLoop_throw test run]
        rw [run] at owed
        exact owed
      | ok flow =>
        rw [run] at owed
        cases flow with
        | leave s' =>
          rw [whileLoop_leave test run]
          exact owed
        | next s' =>
          rw [whileLoop_next test run]
          exact ih s' owed.1 (by have := owed.2; omega)

/-! ## Counting iterations -/

/-- The state that an iteration leaves behind. -/
def Flow.state : Flow σ → σ
  | next s => s
  | leave s => s

/-- `k` iterations from `s` completed, the last one with `flow`. -/
inductive Iterates (cond : σ → Bool) (body : σ → Except ε (Flow σ)) (s : σ) : Nat → Flow σ → Prop where
  | start : Iterates cond body s 0 (.next s)
  | step {k : Nat} {s' : σ} {flow : Flow σ} (before : Iterates cond body s k (.next s')) (test : cond s' = true)
      (run : body s' = .ok flow) : Iterates cond body s (k + 1) flow

/-- How a loop from `s` ends, fuel aside: its test fails, it is left, or an iteration behind
the completed ones throws. -/
def Ends (cond : σ → Bool) (body : σ → Except ε (Flow σ)) (s : σ) : Except ε σ → Prop
  | .ok s' => ∃ k, Iterates cond body s k (.leave s') ∨ Iterates cond body s k (.next s') ∧ cond s' = false
  | .error e => ∃ k s', Iterates cond body s k (.next s') ∧ cond s' = true ∧ body s' = .error e

/-- **A loop with a bounded number of iterations ends**, given fuel for one test more. -/
theorem whileLoop_ends {s : σ} {bound : Nat} (bounded : ∀ k flow, Iterates cond body s k flow → k ≤ bound) {fuel : Nat}
    (enough : bound < fuel) : Ends cond body s (whileLoop exhausted cond body fuel s) := by
  have main : ∀ fuel k s', Iterates cond body s k (.next s') → bound < k + fuel →
      Ends cond body s (whileLoop exhausted cond body fuel s') := by
    intro fuel
    induction fuel with
    | zero =>
      intro k s' before more
      have few := bounded k _ before
      omega
    | succ fuel ih =>
      intro k s' before more
      cases test : cond s' with
      | false =>
        rw [whileLoop_exit test]
        exact ⟨k, .inr ⟨before, test⟩⟩
      | true =>
        cases run : body s' with
        | error e =>
          rw [whileLoop_throw test run]
          exact ⟨k, s', before, test, run⟩
        | ok flow =>
          have after := before.step test run
          cases flow with
          | leave s'' =>
            rw [whileLoop_leave test run]
            exact ⟨k + 1, .inl after⟩
          | next s'' =>
            rw [whileLoop_next test run]
            exact ih (k + 1) s'' after (by omega)
  exact main fuel 0 s .start (by omega)

end Ieee1905.Machine
