import Mathlib.Algebra.BigOperators.Group.Finset.Piecewise
import Mathlib.Data.Fintype.Basic
import Mathlib.Data.List.FinRange
import Mathlib.Tactic.Ring

/-!
# Tables with a reserved slot

A table of fixed size whose slot 0 belongs to its owner: it is searched from slot 1 upwards and its
used slots are counted from slot 1. Writes are `Function.update`.

`find` is the search; `find_eq_some_iff` and `find_eq_none_iff` characterise it. `count` is the number
of slots from 1 on that meet a condition, and `count_update` says what one write does to it. For a
write that fills a slot there is `count_update_of_neg`, and for one that changes nothing the count sees
`count_update_of_eq`.
-/

namespace Slots

variable {k : ℕ} {α : Type*}

/-! ### Searching -/

/-- The first slot from 1 on that meets the condition. -/
def find (p : α → Bool) (t : Fin k → α) : Option (Fin k) :=
  (List.finRange k).find? fun i ↦ decide (i.val ≠ 0) && p (t i)

theorem find_eq_some_iff {p : α → Bool} {t : Fin k → α} {i : Fin k} :
    find p t = some i ↔
      i.val ≠ 0 ∧ p (t i) = true ∧ ∀ j, j < i → j.val ≠ 0 → p (t j) = false := by
  have hget (a : Fin k) (h : a.val < (List.finRange k).length) : (List.finRange k)[a.val] = a :=
    Fin.ext (by simp)
  rw [find, List.find?_eq_some_iff_getElem]
  simp only [Bool.and_eq_true, decide_eq_true_eq, Bool.not_eq_true', Bool.and_eq_false_iff,
    decide_eq_false_iff_not, not_not]
  constructor
  · rintro ⟨⟨h0, hp⟩, a, ha, hai, hmin⟩
    have hak : a < k := by simpa using ha
    have hia : i = ⟨a, hak⟩ := by rw [← hai]; exact hget ⟨a, hak⟩ ha
    subst hia
    refine ⟨h0, hp, fun j hj hj0 ↦ ?_⟩
    have hjmin := hmin j.val hj
    rw [hget j] at hjmin
    exact hjmin.resolve_left hj0
  · rintro ⟨h0, hp, hmin⟩
    refine ⟨⟨h0, hp⟩, i.val, by simp, hget i _, fun a ha ↦ ?_⟩
    have hak : a < k := ha.trans i.isLt
    rw [hget ⟨a, hak⟩]
    rcases eq_or_ne a 0 with ha0 | ha0
    · exact .inl ha0
    · exact .inr (hmin ⟨a, hak⟩ ha ha0)

theorem find_eq_none_iff {p : α → Bool} {t : Fin k → α} :
    find p t = none ↔ ∀ i : Fin k, i.val ≠ 0 → p (t i) = false := by
  rw [find, List.find?_eq_none]
  simp [List.mem_finRange]

/-- Tables that look alike to the condition are searched alike. -/
theorem find_congr {β : Type*} {p : α → Bool} {q : β → Bool} {t : Fin k → α} {u : Fin k → β}
    (h : ∀ i : Fin k, i.val ≠ 0 → p (t i) = q (u i)) : find p t = find q u := by
  rw [find, find]
  congr 1
  funext i
  rcases eq_or_ne i.val 0 with h0 | h0
  · simp [h0]
  · rw [h i h0]

/-! ### Counting -/

/-- The number of slots from 1 on that meet the condition. -/
def count (p : α → Bool) (t : Fin k → α) : ℕ :=
  (Finset.univ.filter fun i : Fin k ↦ i.val ≠ 0 ∧ p (t i) = true).card

theorem count_congr {β : Type*} {p : α → Bool} {q : β → Bool} {t : Fin k → α} {u : Fin k → β}
    (h : ∀ i : Fin k, i.val ≠ 0 → p (t i) = q (u i)) : count p t = count q u := by
  rw [count, count]
  congr 1
  refine Finset.filter_congr fun i _ ↦ and_congr_right fun h0 ↦ ?_
  rw [h i h0]

theorem count_eq_zero_iff {p : α → Bool} {t : Fin k → α} :
    count p t = 0 ↔ ∀ i : Fin k, i.val ≠ 0 → p (t i) = false := by
  rw [count, Finset.card_eq_zero, Finset.filter_eq_empty_iff]
  simp

/-- **One write**: the slot leaves the count with its old content and joins it with its new one. -/
theorem count_update (p : α → Bool) (t : Fin k → α) {i : Fin k} (hi : i.val ≠ 0) (a : α) :
    count p (Function.update t i a) + (if p (t i) then 1 else 0) =
      count p t + (if p a then 1 else 0) := by
  have hsum (u : Fin k → α) : count p u =
      (if p (u i) then 1 else 0) +
        ∑ j ∈ Finset.univ.erase i, if j.val ≠ 0 ∧ p (u j) = true then 1 else 0 := by
    rw [count, Finset.card_filter, ← Finset.add_sum_erase _ _ (Finset.mem_univ i)]
    simp [hi]
  have hrest : (∑ j ∈ Finset.univ.erase i,
        if j.val ≠ 0 ∧ p (Function.update t i a j) = true then 1 else 0) =
      ∑ j ∈ Finset.univ.erase i, if j.val ≠ 0 ∧ p (t j) = true then 1 else 0 :=
    Finset.sum_congr rfl fun j hj ↦ by
      rw [Function.update_of_ne (Finset.ne_of_mem_erase hj)]
  rw [hsum, hsum t, hrest, Function.update_self]
  ring

/-- Filling a slot that did not count. -/
theorem count_update_of_neg {p : α → Bool} {t : Fin k → α} {i : Fin k} (hi : i.val ≠ 0)
    (h : p (t i) = false) (a : α) :
    count p (Function.update t i a) = count p t + (if p a then 1 else 0) := by
  have hcount := count_update p t hi a
  rw [h] at hcount
  simpa using hcount

/-- A write that does not change whether the slot counts. -/
theorem count_update_of_eq {p : α → Bool} {t : Fin k → α} {i : Fin k} {a : α}
    (h : p a = p (t i)) : count p (Function.update t i a) = count p t :=
  count_congr fun j _ ↦ by
    rcases eq_or_ne j i with rfl | hji
    · rw [Function.update_self, h]
    · rw [Function.update_of_ne hji]

end Slots
