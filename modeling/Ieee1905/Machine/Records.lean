import Ieee1905.Codec.Division
import Ieee1905.Machine.Cursor
import Ieee1905.Machine.While

/-!
# A loop that reads records

Each iteration takes one word of a prefix code from the bytes ahead, combines it into an
accumulator and leaves the loop behind a stop word; where no word lies ahead it throws.
Such a loop reads a terminated sequence and looks at nothing behind it, or, where no stop
word comes, the whole input (`whileLoop_terminated`, `whileLoop_exhausts`), or it throws at
the first bytes that are no word (`whileLoop_broken`); and whatever it returns or throws
accounts for its input (`whileLoop_sound`). Fuel for one iteration per
shortest word is enough, and no run completes more iterations (`iterates_bounds`).
-/

namespace Ieee1905.Machine

open Codec

universe u v w x

variable {α : Type u} {β : Type v} {ε : Type w} {γ : Type x}

/-- The contract of the loop body. -/
structure ReadsRecord (C : PrefixCode α β) (stop : α → Bool) (f : γ → α → γ) (Refused : ε → Prop) (buf : List β)
    (body : Nat × γ → Except ε (Flow (Nat × γ))) : Prop where
  /-- A word ahead is taken. -/
  word : ∀ {ptr : Nat} {a : α} {rest : List β} (acc : γ), At buf ptr (C.enc a ++ rest) →
    body (ptr, acc) = .ok (if stop a then .leave (ptr + (C.enc a).length, f acc a)
      else .next (ptr + (C.enc a).length, f acc a))
  /-- Anything else is refused. -/
  other : ∀ {ptr : Nat} {ahead : List β} (acc : γ), At buf ptr ahead → ahead ≠ [] →
    (∀ a rest, ahead ≠ C.enc a ++ rest) → ∃ e, Refused e ∧ body (ptr, acc) = .error e

/-- Everything one iteration can do: take a word, or refuse. -/
theorem ReadsRecord.cases {C : PrefixCode α β} {stop : α → Bool} {f : γ → α → γ} {Refused : ε → Prop} {buf : List β}
    {body : Nat × γ → Except ε (Flow (Nat × γ))} (reads : ReadsRecord C stop f Refused buf body) {ptr : Nat}
    {ahead : List β} (acc : γ) (here : At buf ptr ahead) (more : ahead ≠ []) :
    (∃ a rest, ahead = C.enc a ++ rest ∧ body (ptr, acc) = .ok (if stop a then .leave (ptr + (C.enc a).length, f acc a)
      else .next (ptr + (C.enc a).length, f acc a))) ∨
      ∃ e, Refused e ∧ body (ptr, acc) = .error e := by
  by_cases word : ∃ a rest, ahead = C.enc a ++ rest
  · obtain ⟨a, rest, rfl⟩ := word
    exact .inl ⟨a, rest, rfl, reads.word acc here⟩
  · exact .inr (reads.other acc here more fun a rest split => word ⟨a, rest, split⟩)

/-- What a loop from `acc` over `input` may end in. -/
def Accounted (C : PrefixCode α β) (stop : α → Bool) (f : γ → α → γ) (Refused : ε → Prop) (input : List β) (acc : γ) :
    Except ε (Nat × γ) → Prop
  | .ok s =>
    (∃ (t : Terminated stop) (rest : List β), input = C.encAll t.toList ++ rest) ∨
      ∃ as, Clean stop as ∧ input = C.encAll as ∧ s.2 = as.foldl f acc
  | .error e => Refused e

/-- A word less ahead is one iteration less to go. -/
theorem div_lt_div_of_add_le {m n least : Nat} (pos : 0 < least) (shorter : m + least ≤ n) : m / least < n / least := by
  have step := Nat.div_le_div_right (c := least) shorter
  rw [Nat.add_div_right _ pos] at step
  omega

section Loop

variable {C : PrefixCode α β} {stop : α → Bool} {f : γ → α → γ} {Refused : ε → Prop} {buf : List β}
  {body : Nat × γ → Except ε (Flow (Nat × γ))} {least : Nat} (exhausted : ε)
  (reads : ReadsRecord C stop f Refused buf body) (pos : 0 < least) (long : ∀ a, least ≤ (C.enc a).length)

include pos long in
theorem word_ne_nil (a : α) (rest : List β) : C.enc a ++ rest ≠ [] := by
  apply List.ne_nil_of_length_pos
  have := long a
  rw [List.length_append]
  omega

include reads pos long

/-- The loop reads over words that do not stop it. -/
theorem whileLoop_words {as : List α} (clean : Clean stop as) {rest : List β} {fuel ptr : Nat} (acc : γ)
    (ahead : At buf ptr (C.encAll as ++ rest)) (enough : (C.encAll as ++ rest).length / least < fuel) :
    ∃ fuel', rest.length / least < fuel' ∧
      whileLoop exhausted (beforeEnd buf) body fuel (ptr, acc) =
        whileLoop exhausted (beforeEnd buf) body fuel' (ptr + (C.encAll as).length, as.foldl f acc) := by
  induction as generalizing fuel ptr acc with
  | nil => exact ⟨fuel, enough, rfl⟩
  | cons a as ih =>
    rw [C.encAll_cons, List.append_assoc] at ahead enough
    have shorter : (C.encAll as ++ rest).length + least ≤ (C.enc a ++ (C.encAll as ++ rest)).length := by
      have := long a
      simp only [List.length_append]
      omega
    have less := div_lt_div_of_add_le pos shorter
    obtain ⟨fuel, rfl⟩ := Nat.exists_eq_succ_of_ne_zero (Nat.ne_zero_of_lt enough)
    have test := ahead.beforeEnd (word_ne_nil pos long a _) acc
    have run := reads.word acc ahead
    rw [clean a List.mem_cons_self, if_neg Bool.false_ne_true] at run
    obtain ⟨fuel', left, loop⟩ := ih clean.of_cons (f acc a) ahead.skip (Nat.lt_of_lt_of_le less (Nat.le_of_lt_succ enough))
    refine ⟨fuel', left, ?_⟩
    rw [whileLoop_next test run, loop, C.encAll_cons, List.length_append, Nat.add_assoc]
    rfl

/-- A terminated sequence is read up to its stop word. -/
theorem whileLoop_terminated (t : Terminated stop) {rest : List β} {fuel ptr : Nat} (acc : γ)
    (ahead : At buf ptr (C.encAll t.toList ++ rest)) (enough : (C.encAll t.toList ++ rest).length / least < fuel) :
    whileLoop exhausted (beforeEnd buf) body fuel (ptr, acc) =
      .ok (ptr + (C.encAll t.toList).length, t.toList.foldl f acc) := by
  have split : C.encAll t.toList = C.encAll t.body ++ C.enc t.last := by
    simp [Terminated.toList]
  rw [split, List.append_assoc] at ahead enough
  obtain ⟨fuel, left, words⟩ := whileLoop_words exhausted reads pos long t.clean acc ahead enough
  obtain ⟨fuel, rfl⟩ := Nat.exists_eq_succ_of_ne_zero (Nat.ne_zero_of_lt left)
  have test := ahead.skip.beforeEnd (word_ne_nil pos long t.last rest) (t.body.foldl f acc)
  have run := reads.word (t.body.foldl f acc) ahead.skip
  rw [t.isStop, if_pos rfl] at run
  rw [words, whileLoop_leave test run, split, List.length_append, Nat.add_assoc, Terminated.toList, List.foldl_append]
  rfl

/-- Without a stop word the loop reads up to the end. -/
theorem whileLoop_exhausts {as : List α} (clean : Clean stop as) {fuel ptr : Nat} (acc : γ)
    (ahead : At buf ptr (C.encAll as)) (enough : (C.encAll as).length / least < fuel) :
    whileLoop exhausted (beforeEnd buf) body fuel (ptr, acc) = .ok (buf.length, as.foldl f acc) := by
  rw [← List.append_nil (C.encAll as)] at ahead enough
  obtain ⟨fuel, left, words⟩ := whileLoop_words exhausted reads pos long clean acc ahead enough
  obtain ⟨fuel, rfl⟩ := Nat.exists_eq_succ_of_ne_zero (Nat.ne_zero_of_lt left)
  have size := ahead.skip.length
  rw [words, whileLoop_exit (ahead.skip.beforeEnd_nil _), size]
  rfl

/-- Behind words and in front of bytes that start with none, the loop throws what its body
throws there. -/
theorem whileLoop_broken {as : List α} (clean : Clean stop as) {tail : List β} (broken : Broken C tail) {fuel ptr : Nat}
    (acc : γ) (ahead : At buf ptr (C.encAll as ++ tail)) (enough : (C.encAll as ++ tail).length / least < fuel) {e : ε}
    (thrown : body (ptr + (C.encAll as).length, as.foldl f acc) = .error e) :
    whileLoop exhausted (beforeEnd buf) body fuel (ptr, acc) = .error e := by
  obtain ⟨fuel, left, words⟩ := whileLoop_words exhausted reads pos long clean acc ahead enough
  obtain ⟨fuel, rfl⟩ := Nat.exists_eq_succ_of_ne_zero (Nat.ne_zero_of_lt left)
  rw [words]
  exact whileLoop_throw (ahead.skip.beforeEnd broken.more _) thrown fuel

/-- **The outcome accounts for the input**: a stop word was met, or the input is words and
nothing else, or it was refused. The invariant is that the words read so far stand in front
of the bytes ahead and are what the accumulator holds. -/
theorem whileLoop_sound {input : List β} {fuel ptr : Nat} (acc : γ) (start : At buf ptr input)
    (enough : input.length / least < fuel) :
    Accounted C stop f Refused input acc (whileLoop exhausted (beforeEnd buf) body fuel (ptr, acc)) := by
  let Inv : Nat × γ → Prop := fun s => ∃ as rest, Clean stop as ∧ At buf s.1 rest ∧
    input = C.encAll as ++ rest ∧ s.2 = as.foldl f acc
  have size := start.length
  refine whileLoop_rule Inv (fun s => (buf.length - s.1) / least) (Accounted C stop f Refused input acc)
    ?_ ?_ fuel (ptr, acc) ⟨[], input, Clean.nil, start, rfl, rfl⟩ ?_
  · rintro ⟨ptr, result⟩ ⟨as, rest, clean, ahead, read, collected⟩ test
    have atEnd : rest = [] := by
      by_contra more
      rw [ahead.beforeEnd more] at test
      cases test
    rw [atEnd, List.append_nil] at read
    exact .inr ⟨as, clean, read, collected⟩
  · rintro ⟨ptr, result⟩ ⟨as, rest, clean, ahead, read, collected⟩ test
    rcases reads.cases result ahead (ahead.ne_nil_of_beforeEnd test) with ⟨a, rest', rfl, run⟩ | ⟨e, refused, throws⟩
    · rw [run]
      cases stops : stop a with
      | true =>
        refine .inl ⟨⟨as, a, clean, stops⟩, rest', ?_⟩
        rw [read]
        simp [Terminated.toList]
      | false =>
        have further := ahead.length
        have := long a
        rw [List.length_append] at further
        refine ⟨⟨as ++ [a], rest', ?_, ahead.skip, ?_, ?_⟩, ?_⟩
        · exact clean.append (.singleton stops)
        · rw [read]
          simp
        · rw [List.foldl_append, ← collected]
          rfl
        · apply div_lt_div_of_add_le pos
          show buf.length - (ptr + (C.enc a).length) + least ≤ buf.length - ptr
          omega
    · rw [throws]
      exact refused
  · show (buf.length - ptr) / least < fuel
    rw [size, Nat.add_sub_cancel_left]
    exact enough

end Loop

/-! ## Iteration by iteration -/

section Iterations

variable {C : PrefixCode α β} {stop : α → Bool} {f : γ → α → γ} {Refused : ε → Prop} {buf : List β}
  {body : Nat × γ → Except ε (Flow (Nat × γ))} {least : Nat} (reads : ReadsRecord C stop f Refused buf body)
  (pos : 0 < least) (long : ∀ a, least ≤ (C.enc a).length) {input : List β} {ptr : Nat} {acc : γ}
  (start : At buf ptr input)

include long in
theorem length_mul_le_encAll (as : List α) : as.length * least ≤ (C.encAll as).length := by
  induction as with
  | nil => simp
  | cons a as ih =>
    have first := long a
    rw [List.length_cons, Nat.succ_mul, C.encAll_cons, List.length_append]
    omega

include reads start

/-- The completed iterations have taken a word each, and the cursor is behind them. -/
theorem iterates_words {k : Nat} {flow : Flow (Nat × γ)} (run : Iterates (beforeEnd buf) body (ptr, acc) k flow) :
    ∃ as rest, as.length = k ∧ input = C.encAll as ++ rest ∧ At buf flow.state.1 rest := by
  induction run with
  | start => exact ⟨[], input, rfl, rfl, start⟩
  | @step k s' flow _ test run ih =>
    obtain ⟨ptr', acc'⟩ := s'
    obtain ⟨as, rest, count, read, here⟩ := ih
    have ahead : At buf ptr' rest := here
    rcases reads.cases acc' ahead (ahead.ne_nil_of_beforeEnd test) with ⟨a, rest', rfl, taken⟩ | ⟨e, -, throws⟩
    · rw [taken] at run
      refine ⟨as ++ [a], rest', ?_, ?_, ?_⟩
      · rw [List.length_append, count]
        rfl
      · rw [read]
        simp
      · cases run
        cases stop a <;> exact ahead.skip
    · rw [throws] at run
      cases run

include pos long

/-- The cursor stays inside the buffer, and the iterations are bounded by the shortest word. -/
theorem iterates_bounds {k : Nat} {flow : Flow (Nat × γ)} (run : Iterates (beforeEnd buf) body (ptr, acc) k flow) :
    flow.state.1 ≤ buf.length ∧ k ≤ input.length / least := by
  obtain ⟨as, rest, rfl, read, ahead⟩ := iterates_words reads start run
  refine ⟨ahead.inside, ?_⟩
  have words := length_mul_le_encAll long as
  rw [Nat.le_div_iff_mul_le pos, read, List.length_append]
  omega

/-- Fuel for one test more than the shortest words allow is enough. -/
theorem whileLoop_records_end (exhausted : ε) {fuel : Nat} (enough : input.length / least < fuel) :
    Ends (beforeEnd buf) body (ptr, acc) (whileLoop exhausted (beforeEnd buf) body fuel (ptr, acc)) := by
  have bounded (k : Nat) (flow : Flow (Nat × γ)) (run : Iterates (beforeEnd buf) body (ptr, acc) k flow) :
      k ≤ input.length / least := (iterates_bounds reads pos long start run).2
  exact whileLoop_ends bounded enough

end Iterations

end Ieee1905.Machine
