import Mathlib.Data.List.FinRange
import Mathlib.Data.List.Perm.Basic

/-!
# Sweeps over a table

A table is swept once for each key of a list. A sweep blanks the entries that its key takes, and hands out
what was in them.

`Sweep.table_apply` says what is left. `Sweep.handed_perm` says what was handed out when no key takes a blank
entry: every entry that some key takes was handed out once, however many keys would have taken it.
-/

namespace Sweep

variable {κ α : Type*} {m : ℕ}

section Defs

variable (takes : κ → α → Bool) (blank : α)

/-- The table after the sweep for one key. -/
def pass (k : κ) (T : Fin m → α) : Fin m → α :=
  fun i ↦ if takes k (T i) then blank else T i

/-- What the sweep for one key hands out. -/
def took (k : κ) (T : Fin m → α) : List α :=
  ((List.finRange m).filter fun i ↦ takes k (T i)).map T

/-- The table after a sweep for each key. -/
def table : List κ → (Fin m → α) → Fin m → α
  | [], T => T
  | k :: ks, T => table ks (pass takes blank k T)

/-- What the sweeps hand out. -/
def handed : List κ → (Fin m → α) → List α
  | [], _ => []
  | k :: ks, T => took takes k T ++ handed ks (pass takes blank k T)

end Defs

variable {takes : κ → α → Bool} {blank : α} {ks : List κ}

/-- **What is left.** -/
theorem table_apply (ks : List κ) (T : Fin m → α) (i : Fin m) :
    table takes blank ks T i = if ks.any fun k ↦ takes k (T i) then blank else T i := by
  induction ks generalizing T with
  | nil => rfl
  | cons k ks ih =>
    rw [table, ih, pass, List.any_cons]
    by_cases hk : takes k (T i) = true
    · rw [if_pos hk, ite_self, hk, Bool.true_or, if_pos rfl]
    · rw [if_neg hk, Bool.eq_false_iff.2 hk, Bool.false_or]

/-- A key that takes nothing changes nothing. -/
theorem pass_of_none {k : κ} {T : Fin m → α} (h : ∀ i, takes k (T i) = false) :
    pass takes blank k T = T ∧ took takes k T = [] := by
  refine ⟨funext fun i ↦ ?_, ?_⟩
  · rw [pass, h i]
    rfl
  · rw [took, List.map_eq_nil_iff, List.filter_eq_nil_iff]
    exact fun i _ ↦ by rw [h i]; exact Bool.false_ne_true

/-- Those that meet the first condition, and then those that meet only the second. -/
theorem filter_append_filter_perm {β : Type*} (p q : β → Bool) (l : List β) :
    (l.filter p ++ l.filter fun x ↦ !p x && q x).Perm (l.filter fun x ↦ p x || q x) := by
  have hfirst : (l.filter fun x ↦ p x || q x).filter p = l.filter p := by
    rw [List.filter_filter]
    exact List.filter_congr fun x _ ↦ by cases p x <;> simp
  have hsecond : ((l.filter fun x ↦ p x || q x).filter fun x ↦ !p x) =
      l.filter fun x ↦ !p x && q x := by
    rw [List.filter_filter]
    exact List.filter_congr fun x _ ↦ by cases p x <;> simp
  rw [← hfirst, ← hsecond]
  exact List.filter_append_perm p _

/-- **What was handed out**: each entry that some key takes, once. -/
theorem handed_perm (hblank : ∀ k ∈ ks, takes k blank = false) (T : Fin m → α) :
    (handed takes blank ks T).Perm
      (((List.finRange m).filter fun i ↦ ks.any fun k ↦ takes k (T i)).map T) := by
  induction ks generalizing T with
  | nil => simp [handed]
  | cons k ks ih =>
    have hrest : ∀ k ∈ ks, takes k blank = false := fun k' hk' ↦ hblank k' (List.mem_cons_of_mem _ hk')
    -- what the other keys take had not been blanked
    have hothers : (List.finRange m).filter (fun i ↦ ks.any fun k' ↦ takes k' (pass takes blank k T i)) =
        (List.finRange m).filter fun i ↦ !takes k (T i) && ks.any fun k' ↦ takes k' (T i) := by
      refine List.filter_congr fun i _ ↦ ?_
      rw [pass]
      by_cases hk : takes k (T i) = true
      · rw [if_pos hk, hk, Bool.not_true, Bool.false_and, List.any_eq_false]
        exact fun k' hk' ↦ by rw [hrest k' hk']; exact Bool.false_ne_true
      · rw [if_neg hk, Bool.eq_false_iff.2 hk, Bool.not_false, Bool.true_and]
    have hsame : ((List.finRange m).filter fun i ↦ !takes k (T i) && ks.any fun k' ↦ takes k' (T i)).map
          (pass takes blank k T) =
        ((List.finRange m).filter fun i ↦ !takes k (T i) && ks.any fun k' ↦ takes k' (T i)).map T := by
      refine List.map_congr_left fun i hi ↦ ?_
      have hnot := (Bool.and_eq_true_iff.1 (List.mem_filter.1 hi).2).1
      rw [pass, if_neg (by simpa using hnot)]
    have hperm := ih hrest (pass takes blank k T)
    rw [hothers, hsame] at hperm
    rw [handed, took]
    refine (hperm.append_left _).trans ?_
    rw [← List.map_append]
    exact (filter_append_filter_perm (fun i ↦ takes k (T i))
      (fun i ↦ ks.any fun k' ↦ takes k' (T i)) (List.finRange m)).map T

end Sweep
