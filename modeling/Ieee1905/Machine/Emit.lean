import Ieee1905.Codec.BigEndian

/-!
# Writing through a checked cursor

A writer holds a buffer of fixed size and a cursor; a write outside the buffer fails with
`oob`. `Emits m bs` says that the program `m` writes exactly `bs` at the cursor, leaves
every other byte alone and moves the cursor behind them. The rules follow the shape of
the program, and `Emits.fill` turns them into the value of a whole run over a buffer of
exactly the right size.
-/

namespace Ieee1905.Machine

open Codec

universe u v w

/-- A buffer and the offset of the next write. -/
structure Writer (β : Type u) where
  buffer : List β
  ptr : Nat

variable {β : Type u} {ε : Type v} {α : Type w}

/-- Programs that write through one cursor. -/
abbrev WriteM (β : Type u) (ε : Type v) : Type u → Type max u v := StateT (Writer β) (Except ε)

/-- `*ptr++ = b`. -/
def put (oob : Nat → ε) (b : β) : WriteM β ε PUnit := fun w =>
  if w.ptr < w.buffer.length then .ok (.unit, ⟨w.buffer.set w.ptr b, w.ptr + 1⟩) else .error (oob w.ptr)

/-- `std::copy(bs.begin(), bs.end(), ptr)` and `ptr += bs.size()`. -/
def putAll (oob : Nat → ε) (bs : List β) : WriteM β ε PUnit := bs.forM (put oob)

/-- A big-endian word, high byte first. -/
def putBe16 (oob : Nat → ε) (value : UInt16) : WriteM UInt8 ε PUnit := do
  put oob (hiByte value)
  put oob (loByte value)

/-- Run `m` from the start of a fresh buffer of `size` elements. -/
def runOver (zero : β) (size : Nat) (m : WriteM β ε PUnit) : Except ε (Writer β) := do
  let (_, w) ← m.run ⟨List.replicate size zero, 0⟩
  return w

/-- `m` writes `bs` at the cursor and nothing else. -/
def Emits (m : WriteM β ε PUnit) (bs : List β) : Prop :=
  ∀ pre room : List β, bs.length ≤ room.length →
    m.run ⟨pre ++ room, pre.length⟩ =
      .ok (.unit, ⟨pre ++ bs ++ room.drop bs.length, pre.length + bs.length⟩)

namespace Emits

variable {m n : WriteM β ε PUnit} {xs ys : List β}

theorem nothing : Emits (pure .unit : WriteM β ε PUnit) [] := by
  intro pre room _
  show Except.ok (PUnit.unit, (⟨pre ++ room, pre.length⟩ : Writer β)) = _
  simp

theorem put (oob : Nat → ε) (b : β) : Emits (put oob b) [b] := by
  intro pre room space
  cases room with
  | nil => simp at space
  | cons old room =>
    have inside : pre.length < (pre ++ old :: room).length := by simp
    simp [StateT.run, Machine.put]

/-- One program after the other. -/
theorem seq (first : Emits m xs) (second : Emits n ys) : Emits (m >>= fun _ => n) (xs ++ ys) := by
  intro pre room space
  rw [List.length_append] at space
  have run := second (pre ++ xs) (room.drop xs.length) (by rw [List.length_drop]; omega)
  rw [List.length_append] at run
  rw [StateT.run_bind, first pre room (by omega)]
  refine run.trans ?_
  simp only [List.append_assoc, List.drop_drop, List.length_append, Nat.add_assoc]

/-- A loop over a list writes the elements' bytes in order. -/
theorem forM {f : α → WriteM β ε PUnit} {g : α → List β} (step : ∀ x, Emits (f x) (g x)) (l : List α) :
    Emits (l.forM f) (l.flatMap g) := by
  induction l with
  | nil => exact nothing
  | cons x l ih =>
    rw [List.flatMap_cons]
    exact (step x).seq ih

theorem putAll (oob : Nat → ε) (bs : List β) : Emits (putAll oob bs) bs := by
  have whole := forM (put oob) bs
  rwa [List.flatMap_singleton'] at whole

theorem putBe16 (oob : Nat → ε) (value : UInt16) : Emits (putBe16 oob value) (be16 value) :=
  (put oob (hiByte value)).seq (put oob (loByte value))

/-- A conditional write at the end of a program. -/
theorem when {c : Bool} (write : Emits m xs) : Emits (if c then m else pure .unit) (if c then xs else []) := by
  cases c with
  | false => exact nothing
  | true => exact write

/-- Over a fresh buffer of exactly the right size the bytes are all there is, and the
cursor ends at the end. -/
theorem fill (write : Emits m xs) (zero : β) : runOver zero xs.length m = .ok ⟨xs, xs.length⟩ := by
  have run := write [] (List.replicate xs.length zero) (by simp)
  simp only [List.nil_append, List.length_nil, Nat.zero_add] at run
  rw [runOver, run]
  simp [bind, Except.bind, pure, Except.pure]

end Emits

end Ieee1905.Machine
