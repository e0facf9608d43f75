import Mathlib.Data.List.Basic
import Mathlib.Data.Option.Basic
import Mathlib.Logic.Function.Basic

/-!
# Lists that are searched for a key

A list in which things are kept by a key is searched for its first match, and a key without a match is
appended. `upsert` is the update of such a list: the first match is changed, or a new element at the end.
Elements with the same key further behind are allowed; they are never seen.

`Represents p R l f` says that the list stands for the partial function `f`: what a search for the key `k`
finds is related by `R` to `f k`. The relation is a parameter, so lists of such lists are covered by using
`Represents` again for `R`. `Represents.upsert` is the one fact about updates: an update of the list at a key
is an update of the function there, whatever is done to the element, as long as it keeps its key.
-/

namespace FirstMatch

variable {α β κ : Type*}

/-! ### The update -/

/-- Change the first element with `p`, or put the changed `new` at the end. -/
def upsert (p : α → Bool) (new : α) (f : α → α) : List α → List α
  | [] => [f new]
  | a :: l => if p a then f a :: l else a :: upsert p new f l

variable {p q : α → Bool} {new : α} {f : α → α}

/-- Changing the element at the index of the first match. -/
theorem modify_of_findIdx? {l : List α} {i : ℕ} (h : l.findIdx? p = some i) :
    l.modify i f = upsert p new f l := by
  induction l generalizing i with
  | nil => cases h
  | cons a l ih =>
    rw [List.findIdx?_cons] at h
    by_cases ha : p a
    · rw [if_pos ha] at h
      obtain rfl := Option.some.inj h
      rw [List.modify_zero_cons, upsert, if_pos ha]
    · rw [if_neg ha] at h
      obtain ⟨j, hj, rfl⟩ := Option.map_eq_some_iff.1 h
      rw [List.modify_succ_cons, upsert, if_neg ha, ih hj]

/-- Without a match, the new element is at the end. -/
theorem upsert_of_findIdx? {l : List α} (h : l.findIdx? p = none) : upsert p new f l = l ++ [f new] := by
  induction l with
  | nil => rfl
  | cons a l ih =>
    rw [List.findIdx?_cons] at h
    by_cases ha : p a
    · rw [if_pos ha] at h
      cases h
    · rw [if_neg ha, Option.map_eq_none_iff] at h
      rw [upsert, if_neg ha, ih h, List.cons_append]

/-- What holds of the elements and is kept by the change. -/
theorem forall_mem_upsert {P : α → Prop} {l : List α} (h : ∀ a ∈ l, P a) (hf : ∀ a, P a → P (f a))
    (hnew : P (f new)) : ∀ a ∈ upsert p new f l, P a := by
  induction l with
  | nil => exact List.forall_mem_singleton.2 hnew
  | cons a l ih =>
    obtain ⟨ha, hl⟩ := List.forall_mem_cons.1 h
    rw [upsert]
    split
    · exact List.forall_mem_cons.2 ⟨hf a ha, hl⟩
    · exact List.forall_mem_cons.2 ⟨ha, ih hl⟩

/-- Changing an element that was just appended. -/
theorem modify_append_singleton (l : List α) (a : α) (f : α → α) :
    (l ++ [a]).modify l.length f = l ++ [f a] := by
  induction l with
  | nil => rfl
  | cons b l ih => rw [List.cons_append, List.length_cons, List.modify_succ_cons, ih, List.cons_append]

/-- A search for the key of an update finds the changed element. -/
theorem find?_upsert_self (new : α) (hf : ∀ a, p a → p (f a)) (hnew : p (f new)) (l : List α) :
    (upsert p new f l).find? p = some (f ((l.find? p).getD new)) := by
  induction l with
  | nil => rw [upsert, List.find?_cons_of_pos hnew, List.find?_nil, Option.getD_none]
  | cons a l ih =>
    by_cases ha : p a
    · rw [upsert, if_pos ha, List.find?_cons_of_pos (hf a ha), List.find?_cons_of_pos ha,
        Option.getD_some]
    · rw [upsert, if_neg ha, List.find?_cons_of_neg ha, List.find?_cons_of_neg ha, ih]

/-- A search for something else does not see the update. -/
theorem find?_upsert_of_disjoint (hq : ∀ a, p a → q a = false) (hf : ∀ a, p a → q (f a) = false)
    (hnew : q (f new) = false) (l : List α) : (upsert p new f l).find? q = l.find? q := by
  induction l with
  | nil => rw [upsert, List.find?_cons_of_neg (by simp [hnew])]
  | cons a l ih =>
    by_cases ha : p a
    · rw [upsert, if_pos ha, List.find?_cons_of_neg (by simp [hf a ha]),
        List.find?_cons_of_neg (by simp [hq a ha])]
    · rw [upsert, if_neg ha]
      by_cases hqa : q a
      · rw [List.find?_cons_of_pos hqa, List.find?_cons_of_pos hqa]
      · rw [List.find?_cons_of_neg hqa, List.find?_cons_of_neg hqa, ih]

/-! ### What a list stands for -/

/-- The list stands for the function. -/
def Represents (p : κ → α → Bool) (R : α → β → Prop) (l : List α) (f : κ → Option β) : Prop :=
  ∀ k, Option.Rel R (l.find? (p k)) (f k)

theorem represents_nil (p : κ → α → Bool) (R : α → β → Prop) : Represents p R [] fun _ ↦ none :=
  fun _ ↦ .none

variable {P : κ → α → Bool} {R : α → β → Prop} {l : List α} {g : κ → Option β}

theorem Represents.find?_eq_none_iff (h : Represents P R l g) (k : κ) :
    l.find? (P k) = none ↔ g k = none := by
  have hk := h k
  cases hl : l.find? (P k) with
  | none =>
    rw [hl] at hk
    cases hg : g k with
    | none => exact iff_of_true rfl rfl
    | some b => rw [hg] at hk; cases hk
  | some a =>
    rw [hl] at hk
    cases hg : g k with
    | none => rw [hg] at hk; cases hk
    | some b => exact iff_of_false (Option.some_ne_none a) (Option.some_ne_none b)

/-- What a successful search finds. -/
theorem Represents.exists_of_find? (h : Represents P R l g) {k : κ} {a : α} (ha : l.find? (P k) = some a) :
    ∃ b, g k = some b ∧ R a b := by
  have hk := h k
  rw [ha] at hk
  cases hg : g k with
  | none => rw [hg] at hk; cases hk
  | some b =>
    rw [hg] at hk
    cases hk with
    | some hab => exact ⟨b, rfl, hab⟩

/-- **An update of the list is an update of the function**, if an element has one key and keeps it. -/
theorem Represents.upsert [DecidableEq κ] (h : Represents P R l g) {k : κ} {d : β} {f : α → α} {G : β → β}
    (hkey : ∀ k' a, P k a → P k' a → k' = k) (hf : ∀ k' a, P k a → P k' (f a) = P k' a)
    (hnew : P k new) (hR : ∀ a b, R a b → R (f a) (G b)) (hd : R (f new) (G d)) :
    Represents P R (FirstMatch.upsert (P k) new f l)
      (Function.update g k (some (G ((g k).getD d)))) := by
  intro k'
  by_cases hk' : k' = k
  · subst hk'
    rw [find?_upsert_self new (fun a ha ↦ by rw [hf _ a ha, ha]) (by rw [hf _ _ hnew, hnew]),
      Function.update_self]
    have hk := h k'
    refine .some ?_
    cases hl : l.find? (P k') with
    | none =>
      rw [(h.find?_eq_none_iff k').1 hl]
      exact hd
    | some a =>
      obtain ⟨b, hb, hab⟩ := h.exists_of_find? hl
      rw [hb]
      exact hR a b hab
  · have hq (a : α) (ha : P k a) : P k' a = false := by
      rw [← Bool.not_eq_true]
      exact fun h' ↦ hk' (hkey k' a ha h')
    rw [find?_upsert_of_disjoint hq (fun a ha ↦ (hf k' a ha).trans (hq a ha))
      ((hf k' new hnew).trans (hq new hnew)), Function.update_of_ne hk']
    exact h k'

end FirstMatch
