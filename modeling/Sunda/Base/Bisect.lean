import Mathlib.Data.List.Basic
import Mathlib.Tactic.Common

/-!
# Binary search in an ascending table

`search` halves a window of a table until two neighbours are left and compares the key with both. The window
holds every index at which the key may stand (`Window`), which the ascending order keeps when the window is
halved (`Window.left`, `Window.right`); so the search over the whole table finds the value of the key, and
nothing else (`search_eq_some_iff`).
-/

namespace Bisect

variable {α β : Type*} [Ord α]

/-- The keys are strictly ascending. -/
def Ascending (table : List (α × β)) : Prop :=
  table.Pairwise fun a b ↦ compare a.1 b.1 = .lt

/-- The value at an index, if the key stands there. -/
def hit (table : List (α × β)) (key : α) (i : ℕ) : Option β :=
  table[i]?.bind fun entry ↦ if compare key entry.1 = .eq then some entry.2 else none

/-- The search in the window from `first` to `last`. -/
def search (table : List (α × β)) (key : α) (first last : ℕ) : Option β :=
  if 1 < last - first then
    match table[(first + last) / 2]? with
    | none => none
    | some entry =>
      match compare key entry.1 with
      | .eq => some entry.2
      | .lt => search table key first ((first + last) / 2)
      | .gt => search table key ((first + last) / 2) last
  else (hit table key first).or (hit table key last)
termination_by last - first

/-- The window is inside the table and holds every index at which the key stands. -/
structure Window (table : List (α × β)) (key : α) (first last : ℕ) : Prop where
  le : first ≤ last
  lt : last < table.length
  holds : ∀ i v, table[i]? = some (key, v) → first ≤ i ∧ i ≤ last

variable {table : List (α × β)} {key : α}

theorem Ascending.compare_eq_lt (h : Ascending table) {i j : ℕ} (hij : i < j) {a b : α × β}
    (ha : table[i]? = some a) (hb : table[j]? = some b) : compare a.1 b.1 = .lt := by
  obtain ⟨hi, rfl⟩ := List.getElem?_eq_some_iff.1 ha
  obtain ⟨hj, rfl⟩ := List.getElem?_eq_some_iff.1 hb
  exact List.pairwise_iff_getElem.1 h i j hi hj hij

/-- The key is above the entry in the middle: it stands right of it. -/
theorem Window.right {first last mid : ℕ} (h : Window table key first last) (hasc : Ascending table)
    {entry : α × β} (hentry : table[mid]? = some entry) (hmid : first ≤ mid ∧ mid ≤ last)
    (hgt : compare key entry.1 = .gt) : Window table key mid last := by
  refine ⟨hmid.2, h.lt, fun i v hi ↦ ⟨?_, (h.holds i v hi).2⟩⟩
  by_contra hle
  have hlt : compare key entry.1 = .lt := hasc.compare_eq_lt (by omega) hi hentry
  rw [hgt] at hlt
  cases hlt

theorem hit_eq_some_iff [Std.LawfulEqOrd α] (i : ℕ) (v : β) :
    hit table key i = some v ↔ table[i]? = some (key, v) := by
  rw [hit, Option.bind_eq_some_iff]
  constructor
  · rintro ⟨⟨k, w⟩, hi, hv⟩
    split at hv
    · next heq =>
      obtain rfl : key = k := Std.LawfulEqOrd.eq_of_compare heq
      obtain rfl : w = v := Option.some.inj hv
      exact hi
    · cases hv
  · intro hi
    exact ⟨_, hi, if_pos Std.ReflOrd.compare_self⟩

variable [Std.TransOrd α]

/-- The key is below it: it stands left of it. -/
theorem Window.left {first last mid : ℕ} (h : Window table key first last) (hasc : Ascending table)
    {entry : α × β} (hentry : table[mid]? = some entry) (hmid : first ≤ mid ∧ mid ≤ last)
    (hlt : compare key entry.1 = .lt) : Window table key first mid := by
  refine ⟨hmid.1, Nat.lt_of_le_of_lt hmid.2 h.lt, fun i v hi ↦ ⟨(h.holds i v hi).1, ?_⟩⟩
  by_contra hle
  have hgt : compare entry.1 key = .lt := hasc.compare_eq_lt (by omega) hentry hi
  rw [Std.OrientedOrd.eq_swap, hlt] at hgt
  cases hgt

/-- It is enough that neighbours ascend. -/
theorem ascending_of_isChain (h : table.IsChain fun a b ↦ compare a.1 b.1 = .lt) : Ascending table :=
  let R (a b : α × β) : Prop := compare a.1 b.1 = .lt
  have : Trans R R R := ⟨Std.TransCmp.lt_trans⟩
  List.isChain_iff_pairwise.1 h

/-- A key stands at one index only. -/
theorem Ascending.index_unique (h : Ascending table) {i j : ℕ} {v w : β}
    (hi : table[i]? = some (key, v)) (hj : table[j]? = some (key, w)) : i = j := by
  have hne {i j : ℕ} {v w : β} (hi : table[i]? = some (key, v)) (hj : table[j]? = some (key, w)) :
      ¬i < j := fun hij ↦ by
    have hlt : compare key key = .lt := h.compare_eq_lt hij hi hj
    rw [Std.ReflOrd.compare_self] at hlt
    cases hlt
  have h1 := hne hi hj
  have h2 := hne hj hi
  omega

variable [Std.LawfulEqOrd α]

/-- **The search in a window.** -/
theorem Window.search_eq_some_iff {first last : ℕ} (h : Window table key first last)
    (hasc : Ascending table) (v : β) : search table key first last = some v ↔ (key, v) ∈ table := by
  rw [List.mem_iff_getElem?]
  fun_induction search table key first last with
  | case1 first last hwide hnone =>
    have hlt := h.lt
    rw [List.getElem?_eq_none_iff] at hnone
    omega
  | case2 first last hwide entry hentry heq =>
    obtain ⟨k, w⟩ := entry
    obtain rfl : key = k := Std.LawfulEqOrd.eq_of_compare heq
    constructor
    · intro hv
      obtain rfl : w = v := Option.some.inj hv
      exact ⟨_, hentry⟩
    · rintro ⟨i, hi⟩
      rw [← hasc.index_unique hi hentry, hi] at hentry
      exact congrArg some (congrArg Prod.snd (Option.some.inj hentry)).symm
  | case3 first last hwide entry hentry hlt ih =>
    exact ih (h.left hasc hentry (by omega) hlt)
  | case4 first last hwide entry hentry hgt ih =>
    exact ih (h.right hasc hentry (by omega) hgt)
  | case5 first last hnarrow =>
    -- the two neighbours are the only indices left
    rw [Option.or_eq_some_iff, hit_eq_some_iff, hit_eq_some_iff]
    constructor
    · rintro (hi | ⟨-, hi⟩)
      · exact ⟨_, hi⟩
      · exact ⟨_, hi⟩
    · rintro ⟨i, hi⟩
      have hwin := h.holds i v hi
      rcases Nat.eq_or_lt_of_le hwin.1 with rfl | hgt
      · exact .inl hi
      · obtain rfl : i = last := by omega
        refine .inr ⟨?_, hi⟩
        rw [Option.eq_none_iff_forall_not_mem]
        intro w hw
        have := hasc.index_unique ((hit_eq_some_iff first w).1 hw) hi
        omega

/-- **The search in the whole table** finds the value of the key, and nothing else. -/
theorem search_eq_some_iff (hasc : Ascending table) (hne : table ≠ []) (v : β) :
    search table key 0 (table.length - 1) = some v ↔ (key, v) ∈ table := by
  have hpos := List.length_pos_iff.2 hne
  refine Window.search_eq_some_iff ⟨Nat.zero_le _, by omega, fun i v hi ↦ ⟨Nat.zero_le _, ?_⟩⟩ hasc v
  obtain ⟨hlt, -⟩ := List.getElem?_eq_some_iff.1 hi
  omega

end Bisect
