import Mathlib.Data.Nat.Notation

/-!
# How a call can fail

C++ exceptions with their texts, an access outside a buffer (undefined behaviour in the
source, a distinct failure here) and a loop whose fuel is used up.
-/

namespace Ieee1905

inductive Fault where
  | runtimeError (what : String)
  | lengthError (what : String)
  | invalidArgument (what : String)
  | outOfBounds (offset : ℕ)
  | exhausted
  deriving DecidableEq, Repr

/-- `e.what()` of what a `catch (const std::exception& e)` catches. -/
def Fault.what? : Fault → Option String
  | .runtimeError what => some what
  | .lengthError what => some what
  | .invalidArgument what => some what
  | .outOfBounds _ => none
  | .exhausted => none

def Fault.IsRuntimeError (e : Fault) : Prop := ∃ what, e = .runtimeError what

/-- The result is a `std::runtime_error`. -/
def ThrowsRuntimeError {α : Type} (r : Except Fault α) : Prop := ∃ what, r = .error (.runtimeError what)

/-- The result is a `std::length_error`. -/
def ThrowsLengthError {α : Type} (r : Except Fault α) : Prop := ∃ what, r = .error (.lengthError what)

/-- Where a call that does not return throws `std::runtime_error`, every exception is one. -/
theorem Fault.isRuntimeError_of_thrown {α : Type} {r : Except Fault α} (total : (∃ a, r = .ok a) ∨ ThrowsRuntimeError r)
    {e : Fault} (thrown : r = .error e) : e.IsRuntimeError := by
  rcases total with ⟨a, returns⟩ | ⟨what, throws⟩
  · rw [returns] at thrown
    cases thrown
  · rw [throws] at thrown
    exact ⟨what, (Except.error.inj thrown).symm⟩

/-! ## Methods

A method that may throw runs in `EStateM`: what it did to its object before the throw
stays. -/

@[simp] theorem run_ofExcept_ok {ε σ α : Type} (a : α) (s : σ) :
    (ofExcept (.ok a : Except ε α) : EStateM ε σ α).run s = .ok a s := rfl

@[simp] theorem run_ofExcept_error {ε σ α : Type} (e : ε) (s : σ) :
    (ofExcept (.error e : Except ε α) : EStateM ε σ α).run s = .error e s := rfl

theorem run_tryCatch {ε σ α : Type} (body : EStateM ε σ α) (handler : ε → EStateM ε σ α) (s : σ) :
    (tryCatch body handler).run s =
      match body.run s with
      | .ok a s' => .ok a s'
      | .error e s' => (handler e).run s' := by
  show EStateM.tryCatch body handler s = match body s with
    | .ok a s' => .ok a s'
    | .error e s' => handler e s'
  delta EStateM.tryCatch
  cases body s <;> rfl

end Ieee1905
