import Mathlib.Data.List.Basic

/-!
# Permits

A counter of free permits together with the list of those who hold one. `take` and `give` move a permit
between the counter and a holder, and `reset` overwrites the counter, which is what a careless
initialisation does.

The total is the number of free permits and of holders. `total_take` and `total_give` say that moving a
permit keeps it, `total_reset_eq_iff` that overwriting the counter keeps a total of one exactly when nobody
holds a permit. With a total of one the permit is a mutual exclusion lock (`holders_length_le`).
-/

/-- A counter of permits, and who holds one. A holder of several permits is listed several times. -/
structure Permits (P : Type*) where
  free : ℕ
  holders : List P

namespace Permits

variable {P : Type*}

/-- The permits that are free or held. -/
def total (s : Permits P) : ℕ :=
  s.free + s.holders.length

/-- `p` takes a permit. -/
def take (s : Permits P) (p : P) : Permits P :=
  ⟨s.free - 1, p :: s.holders⟩

/-- `p` gives a permit back to the counter. -/
def give [DecidableEq P] (s : Permits P) (p : P) : Permits P :=
  ⟨s.free + 1, s.holders.erase p⟩

/-- `p` believes that it gave its permit back, and the counter did not get it. -/
def lose [DecidableEq P] (s : Permits P) (p : P) : Permits P :=
  ⟨s.free, s.holders.erase p⟩

/-- The counter is set to `v`, whoever holds a permit. -/
def reset (s : Permits P) (v : ℕ) : Permits P :=
  ⟨v, s.holders⟩

theorem total_take {s : Permits P} (h : 0 < s.free) (p : P) : (s.take p).total = s.total := by
  rw [total, total, take, List.length_cons]
  dsimp only
  omega

/-- A held permit is one of the total. -/
theorem length_erase [DecidableEq P] {s : Permits P} {p : P} (h : p ∈ s.holders) :
    (s.holders.erase p).length + 1 = s.holders.length := by
  have hpos := List.length_pos_of_mem h
  rw [List.length_erase_of_mem h]
  omega

theorem total_give [DecidableEq P] {s : Permits P} {p : P} (h : p ∈ s.holders) :
    (s.give p).total = s.total := by
  have hlen := length_erase h
  rw [total, total, give]
  dsimp only
  omega

theorem total_lose [DecidableEq P] {s : Permits P} {p : P} (h : p ∈ s.holders) :
    (s.lose p).total + 1 = s.total := by
  have hlen := length_erase h
  rw [total, total, lose]
  dsimp only
  omega

/-- **Overwriting the counter** with the total keeps the total exactly when nobody holds a permit. -/
theorem total_reset_eq_iff (s : Permits P) (v : ℕ) : (s.reset v).total = v ↔ s.holders = [] := by
  rw [total, reset, ← List.length_eq_zero_iff]
  dsimp only
  omega

/-- A total of one is at most one holder. -/
theorem holders_length_le {s : Permits P} (h : s.total = 1) : s.holders.length ≤ 1 := by
  rw [total] at h
  omega

/-- With a total of one, nothing is free while somebody holds the permit. -/
theorem free_eq_zero {s : Permits P} (h : s.total = 1) {p : P} (hp : p ∈ s.holders) : s.free = 0 := by
  have hpos := List.length_pos_of_mem hp
  rw [total] at h
  omega

end Permits
