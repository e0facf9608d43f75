import Mathlib.Data.List.Basic

/-!
# Reading a sequence line by line

A sequence is read in lines, each ended by a terminator `nl`. `gets nl n s` takes elements from a
stream until a terminator was taken, `n` elements were taken, or the stream ran out. The stream's
`eof` flag says that a read **ran into the end**, not that nothing is left: behind a terminated last
line it is still false, and reading an unterminated last line sets it together with the line.

`textOf nl lines tail` is a sequence made of whole lines with an unterminated `tail` behind them.
`gets_line` and `gets_tail` are the two reads it allows.
-/

namespace Lines

variable {α : Type*}

/-- What is left to read, and whether a read ran into the end. -/
structure Stream (α : Type*) where
  rest : List α
  eof : Bool

/-- A stream that no read ran out of. -/
def Stream.opened (xs : List α) : Stream α where
  rest := xs
  eof := false

/-- The stream behind its end. -/
def Stream.ended : Stream α where
  rest := []
  eof := true

/-- Whole lines, and an unterminated rest. -/
def textOf (nl : α) (lines : List (List α)) (tail : List α) : List α :=
  (lines.flatMap fun l ↦ l ++ [nl]) ++ tail

theorem textOf_cons (nl : α) (l : List α) (lines : List (List α)) (tail : List α) :
    textOf nl (l :: lines) tail = l ++ nl :: textOf nl lines tail := by
  simp [textOf]

/-- There are at least as many elements as terminators. -/
theorem length_le_textOf (nl : α) (lines : List (List α)) (tail : List α) :
    lines.length ≤ (textOf nl lines tail).length := by
  induction lines with
  | nil => exact Nat.zero_le _
  | cons l lines ih =>
    rw [textOf_cons, List.length_append, List.length_cons, List.length_cons]
    omega

variable [DecidableEq α]

/-- Take elements up to a terminator, `n` of them at most. -/
def gets (nl : α) : ℕ → Stream α → List α × Stream α
  | 0, s => ([], s)
  | n + 1, s =>
    match s.rest with
    | [] => ([], { s with eof := true })
    | x :: xs =>
      if x = nl then ([x], { s with rest := xs })
      else
        let r := gets nl n { s with rest := xs }
        (x :: r.1, r.2)

variable {nl : α} {l : List α} {n : ℕ}

/-- A line that fits is read with its terminator. -/
theorem gets_line (hl : nl ∉ l) (hn : l.length < n) (xs : List α) :
    gets nl n (.opened (l ++ nl :: xs)) = (l ++ [nl], .opened xs) := by
  induction l generalizing n with
  | nil =>
    obtain ⟨k, rfl⟩ := Nat.exists_eq_add_of_lt hn
    simp [gets, Stream.opened]
  | cons x l ih =>
    obtain ⟨k, rfl⟩ := Nat.exists_eq_succ_of_ne_zero (Nat.ne_zero_of_lt hn)
    have hx : x ≠ nl := fun h ↦ hl (h ▸ List.mem_cons_self)
    have ih := ih (fun h ↦ hl (List.mem_cons_of_mem x h)) (Nat.lt_of_succ_lt_succ hn)
    rw [Stream.opened] at ih
    simp [gets, Stream.opened, hx, ih]

/-- An unterminated rest that fits is read with the end flag. -/
theorem gets_tail (hl : nl ∉ l) (hn : l.length < n) : gets nl n (.opened l) = (l, .ended) := by
  induction l generalizing n with
  | nil =>
    obtain ⟨k, rfl⟩ := Nat.exists_eq_add_of_lt hn
    simp [gets, Stream.opened, Stream.ended]
  | cons x l ih =>
    obtain ⟨k, rfl⟩ := Nat.exists_eq_succ_of_ne_zero (Nat.ne_zero_of_lt hn)
    have hx : x ≠ nl := fun h ↦ hl (h ▸ List.mem_cons_self)
    have ih := ih (fun h ↦ hl (List.mem_cons_of_mem x h)) (Nat.lt_of_succ_lt_succ hn)
    rw [Stream.opened] at ih
    simp [gets, Stream.opened, hx, ih]

theorem gets_le (n : ℕ) (s : Stream α) : (gets nl n s).2.rest.length ≤ s.rest.length := by
  induction n generalizing s with
  | zero => exact Nat.le_refl _
  | succ n ih =>
    rw [gets]
    split
    · exact Nat.le_refl _
    · next x xs hs =>
      rw [hs, List.length_cons]
      split
      · exact Nat.le_succ _
      · exact Nat.le_succ_of_le (ih _)

/-- A read takes something or runs into the end. -/
theorem gets_lt (hn : 0 < n) (s : Stream α) :
    (gets nl n s).2.eof = true ∨ (gets nl n s).2.rest.length < s.rest.length := by
  obtain ⟨k, rfl⟩ := Nat.exists_eq_succ_of_ne_zero (Nat.ne_of_gt hn)
  rw [gets]
  split
  · exact .inl rfl
  · next x xs hs =>
    refine .inr ?_
    rw [hs, List.length_cons]
    split
    · exact Nat.lt_succ_self _
    · exact Nat.lt_succ_of_le (gets_le k _)

end Lines
