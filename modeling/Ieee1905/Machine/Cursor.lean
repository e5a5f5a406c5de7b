import Ieee1905.Codec.BigEndian

/-!
# Reading through a checked cursor

A cursor is an offset into a buffer; every byte access is checked against the buffer's
size and fails with `oob` outside it. `At buf ptr rest` says that `rest` lies ahead, and
each read has one lemma that says what it returns and what lies ahead afterwards.
-/

namespace Ieee1905.Machine

open Codec

universe u v w

variable {β : Type u} {ε : Type v} {γ : Type w}

/-- `*ptr++`. -/
def next (oob : Nat → ε) (buf : List β) (ptr : Nat) : Except ε (β × Nat) :=
  match buf[ptr]? with
  | some b => .ok (b, ptr + 1)
  | none => .error (oob ptr)

/-- The range `[ptr, ptr + n)`, byte by byte, and the cursor behind it. -/
def copy (oob : Nat → ε) (buf : List β) : Nat → Nat → Except ε (List β × Nat)
  | 0, ptr => .ok ([], ptr)
  | n + 1, ptr => do
    let (b, ptr) ← next oob buf ptr
    let (bs, ptr) ← copy oob buf n ptr
    return (b :: bs, ptr)

/-- Two bytes as a big-endian word. -/
def nextBe16 (oob : Nat → ε) (buf : List UInt8) (ptr : Nat) : Except ε (UInt16 × Nat) := do
  let (hi, ptr) ← next oob buf ptr
  let (lo, ptr) ← next oob buf ptr
  return (ofBytes hi lo, ptr)

/-- `ptr < end_ptr`, for a loop whose state starts with the cursor. -/
def beforeEnd (buf : List β) (s : Nat × γ) : Bool := s.1 < buf.length

/-- The cursor `ptr` is inside `buf` and `rest` lies ahead of it. -/
structure At (buf : List β) (ptr : Nat) (rest : List β) : Prop where
  ahead : buf.drop ptr = rest
  inside : ptr ≤ buf.length

namespace At

variable {buf rest : List β} {ptr : Nat}

theorem start (buf : List β) : At buf 0 buf := ⟨List.drop_zero, Nat.zero_le _⟩

theorem length (h : At buf ptr rest) : buf.length = ptr + rest.length := by
  have size := congrArg List.length h.ahead
  rw [List.length_drop] at size
  have := h.inside
  omega

theorem skip {front : List β} (h : At buf ptr (front ++ rest)) : At buf (ptr + front.length) rest := by
  constructor
  · rw [← List.drop_drop, h.ahead, List.drop_left]
  · have := h.length
    rw [List.length_append] at this
    omega

theorem step {b : β} (h : At buf ptr (b :: rest)) : At buf (ptr + 1) rest := by
  have split : At buf ptr ([b] ++ rest) := h
  exact split.skip

theorem next_eq {b : β} (h : At buf ptr (b :: rest)) (oob : Nat → ε) : next oob buf ptr = .ok (b, ptr + 1) := by
  have found : buf[ptr]? = some b := by rw [← List.head?_drop, h.ahead, List.head?_cons]
  simp only [next, found]

theorem copy_eq {front : List β} (h : At buf ptr (front ++ rest)) (oob : Nat → ε) :
    copy oob buf front.length ptr = .ok (front, ptr + front.length) := by
  induction front generalizing ptr with
  | nil => rfl
  | cons b front ih =>
    have tail := ih h.step
    simp only [List.length_cons, copy, h.next_eq, bind, Except.bind, tail, pure, Except.pure]
    congr 2
    omega

theorem nextBe16_eq {buf rest : List UInt8} {hi lo : UInt8} (h : At buf ptr (hi :: lo :: rest)) (oob : Nat → ε) :
    nextBe16 oob buf ptr = .ok (ofBytes hi lo, ptr + 2) := by
  simp only [nextBe16, h.next_eq, bind, Except.bind, h.step.next_eq, pure, Except.pure]

theorem beforeEnd_nil (h : At buf ptr []) (acc : γ) : beforeEnd buf (ptr, acc) = false := by
  have size := h.length
  simp [Machine.beforeEnd, size]

theorem ne_nil_of_beforeEnd {acc : γ} (h : At buf ptr rest) (test : Machine.beforeEnd buf (ptr, acc) = true) :
    rest ≠ [] := by
  rintro rfl
  rw [h.beforeEnd_nil] at test
  cases test

theorem beforeEnd (h : At buf ptr rest) (more : rest ≠ []) (acc : γ) : beforeEnd buf (ptr, acc) = true := by
  have size := h.length
  have pos := List.length_pos_iff.mpr more
  simp only [Machine.beforeEnd, decide_eq_true_eq]
  omega

end At

end Ieee1905.Machine
