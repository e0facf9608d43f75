import Mathlib.Data.List.DropRight

/-!
# The words of a text

`words p s` are the maximal non-empty pieces of `s` without a separator, a character that satisfies
`p`. `words_step` gives them one after the other, as a scanner that skips separators and takes the next
word does, and `words_append_cons` takes a text apart at a separator. The words determine the text up to
its separators (`flatten_words`), so cutting off the end of a text keeps its words exactly when only
separators are cut off (`words_append_eq_iff`).
-/

namespace Words

variable {α : Type*} (p : α → Bool)

/-- The words of `s`. -/
def words (s : List α) : List (List α) :=
  (s.splitOnP p).filter fun w ↦ !w.isEmpty

@[simp]
theorem words_nil : words p ([] : List α) = [] := by
  simp [words]

variable {p}

theorem words_append_cons {c : α} (hc : p c = true) (s t : List α) :
    words p (s ++ c :: t) = words p s ++ words p t := by
  rw [words, List.splitOnP_append_cons s t hc, List.filter_append, words, words]

theorem words_cons_of_sep {c : α} (hc : p c = true) (t : List α) : words p (c :: t) = words p t := by
  simpa using words_append_cons hc [] t

/-- A text without separators is one word. -/
theorem words_eq_singleton {s : List α} (hne : s ≠ []) (h : ∀ c ∈ s, p c = false) :
    words p s = [s] := by
  rw [words, List.splitOnP_eq_singleton h, List.filter_cons_of_pos (by simpa using hne), List.filter_nil]

/-- Separators in front do not count. -/
theorem words_append_of_sep {s : List α} (hs : ∀ c ∈ s, p c = true) (t : List α) :
    words p (s ++ t) = words p t := by
  induction s with
  | nil => rfl
  | cons c s ih =>
    rw [List.cons_append, words_cons_of_sep (hs c List.mem_cons_self)]
    exact ih fun d hd ↦ hs d (List.mem_cons_of_mem _ hd)

theorem words_dropWhile (s : List α) : words p (s.dropWhile p) = words p s := by
  conv_rhs => rw [← List.takeWhile_append_dropWhile (p := p) (l := s)]
  exact (words_append_of_sep (fun c hc ↦ List.mem_takeWhile_imp hc) _).symm

/-- **One word after the other**: behind the separators in front stands the first word, and the text
goes on behind the separator that ends it. -/
theorem words_step (s : List α) :
    words p s =
      let tok := (s.dropWhile p).takeWhile (!p ·)
      if tok = [] then [] else tok :: words p ((s.dropWhile p).drop (tok.length + 1)) := by
  have hsplit := List.takeWhile_append_dropWhile (p := (!p ·)) (l := s.dropWhile p)
  have htok (c : α) (hc : c ∈ (s.dropWhile p).takeWhile (!p ·)) : p c = false := by
    simpa using List.mem_takeWhile_imp hc
  generalize (s.dropWhile p).takeWhile (!p ·) = tok at hsplit htok ⊢
  rw [← words_dropWhile s]
  generalize hrest : (s.dropWhile p).dropWhile (!p ·) = rest at hsplit
  cases rest with
  | nil =>
    rw [List.append_nil] at hsplit
    dsimp only
    rw [← hsplit, List.drop_eq_nil_of_le (Nat.le_succ _), words_nil]
    split
    · next hnil => rw [hnil, words_nil]
    · next hne => exact words_eq_singleton hne htok
  | cons c rest =>
    have hc : p c = true := by
      have hhead := List.head_dropWhile_not (!p ·) (l := s.dropWhile p) (by simp [hrest])
      simpa [hrest] using hhead
    dsimp only
    rw [← hsplit, words_append_cons hc, List.drop_append, List.drop_eq_nil_of_le (Nat.le_succ _),
      Nat.add_sub_cancel_left, List.nil_append, List.drop_succ_cons, List.drop_zero]
    split
    · next hnil =>
      -- behind the separators in front stands no separator
      rw [hnil, List.nil_append] at hsplit
      have hhead := List.head_dropWhile_not p (l := s) (by simp [← hsplit])
      simp [← hsplit, hc] at hhead
    · next hne => rw [words_eq_singleton hne htok, List.singleton_append]

theorem flatten_splitOnP (s : List α) : (s.splitOnP p).flatten = s.filter (!p ·) := by
  induction s with
  | nil => simp
  | cons c s ih =>
    rw [List.splitOnP_cons_eq_if_modifyHead, List.filter_cons, ← ih]
    obtain ⟨w, ws, hws⟩ := List.exists_cons_of_ne_nil (List.splitOnP_ne_nil p s)
    cases p c <;> simp [hws]

/-- The characters of the words are those of the text that are no separators. -/
theorem flatten_words (s : List α) : (words p s).flatten = s.filter (!p ·) := by
  rw [words, List.flatten_filter_not_isEmpty, flatten_splitOnP]

/-- **What is cut off** at the end leaves the words as they are exactly when it is separators. -/
theorem words_append_eq_iff (s t : List α) :
    words p (s ++ t) = words p s ↔ ∀ c ∈ t, p c = true := by
  constructor
  · intro h
    have hflat := congrArg List.flatten h
    rw [flatten_words, flatten_words, List.filter_append, List.append_right_eq_self,
      List.filter_eq_nil_iff] at hflat
    intro c hc
    simpa using hflat c hc
  · intro ht
    induction t using List.reverseRecOn with
    | nil => rw [List.append_nil]
    | append_singleton t c ih =>
      have hc : p c = true := ht c (List.mem_append_right _ List.mem_cons_self)
      rw [← List.append_assoc, words_append_cons hc, words_nil, List.append_nil]
      exact ih fun d hd ↦ ht d (List.mem_append_left _ hd)

end Words
