import Sunda.Base.Decimal
import Sunda.Base.Bytes
import Mathlib.Data.List.DropRight

/-!
# Trimming a string in place

The functions of `pubfun/common/funstr.c`. `AllTrim` removes the blanks at both ends of a
NUL-terminated string, shifting the rest to the front of its buffer; `LeftTrim` and `RightTrim`
remove blanks, tabs and line ends at one end each. `cstr_allTrim`, `cstr_leftTrim` and
`cstr_rightTrim` say what string the buffer holds afterwards; the bytes behind its NUL are left over
from before.

`allTrimAccesses` lists the indices at which `AllTrim` reads and writes its argument. They stay
inside a string that has a character other than a blank, and leave any other string at its front
(`allTrim_exact_iff`).
-/

namespace Sunda

open Bytes

/-- The character `' '`. -/
def isBlank (c : UInt8) : Bool := c == 32

/-- A string without the blanks at its two ends. -/
def trimmed (s : List UInt8) : List UInt8 :=
  (s.rdropWhile isBlank).dropWhile isBlank

/-- The second loop of `AllTrim`, from the end of the string downwards; it returns `j + 1`. -/
def trimEnd (str : List UInt8) : ℕ → ℕ
  | 0 => 0
  | j + 1 => if isBlank (str.getD j 0) then trimEnd str j else j + 1

/-- `AllTrim`. The copying loop ends with `k = max 0 (j + 1 - i)`; the last loop starts at the NUL
that was just stored and does nothing. -/
def allTrim (str : List UInt8) : List UInt8 :=
  let i := (str.takeWhile isBlank).length
  let k := trimEnd str (cstr str).length - i
  (str.drop i).take k ++ 0 :: str.drop (k + 1)

theorem trimEnd_eq (str : List UInt8) {n : ℕ} (h : n ≤ str.length) :
    trimEnd str n = ((str.take n).rdropWhile isBlank).length := by
  induction n with
  | zero => rfl
  | succ n ih =>
    have hlt : n < str.length := by omega
    have hget : str.getD n 0 = str[n] := List.getD_eq_getElem str 0 hlt
    have htake : str.take (n + 1) = str.take n ++ [str.getD n 0] := by
      rw [hget, List.take_succ_eq_append_getElem hlt]
    rw [trimEnd, htake, List.rdropWhile_concat]
    split
    · exact ih (by omega)
    · rw [List.length_append, List.length_take, List.length_singleton]
      omega

/-- Dropping as many characters from the front as the untrimmed string has blanks there. -/
theorem trimmed_eq_drop (s : List UInt8) :
    trimmed s = (s.rdropWhile isBlank).drop (s.takeWhile isBlank).length := by
  obtain ⟨t, ht⟩ := List.rdropWhile_prefix isBlank s
  by_cases hnil : s.rdropWhile isBlank = []
  · simp [trimmed, hnil]
  · have hlast := List.rdropWhile_last_not isBlank s hnil
    have htw : s.takeWhile isBlank = (s.rdropWhile isBlank).takeWhile isBlank := by
      conv_lhs => rw [← ht, List.takeWhile_append]
      refine if_neg fun hlen ↦ hlast ?_
      have hall : (s.rdropWhile isBlank).takeWhile isBlank = s.rdropWhile isBlank :=
        (List.takeWhile_prefix _).eq_of_length hlen
      exact List.takeWhile_eq_self_iff.1 hall _ (List.getLast_mem hnil)
    have hsplit := List.takeWhile_append_dropWhile (p := isBlank) (l := s.rdropWhile isBlank)
    calc trimmed s
        = (((s.rdropWhile isBlank).takeWhile isBlank) ++
            (s.rdropWhile isBlank).dropWhile isBlank).drop
              ((s.rdropWhile isBlank).takeWhile isBlank).length := List.drop_left.symm
      _ = (s.rdropWhile isBlank).drop (s.takeWhile isBlank).length := by rw [hsplit, htw]

theorem trimmed_subset (s : List UInt8) {c : UInt8} (h : c ∈ trimmed s) : c ∈ s :=
  (List.rdropWhile_prefix isBlank s).subset ((List.dropWhile_suffix isBlank).subset h)

theorem trimmed_length_le (s : List UInt8) : (trimmed s).length ≤ s.length :=
  (List.dropWhile_suffix isBlank).length_le.trans (List.rdropWhile_prefix isBlank s).length_le

/-- The blanks in front of a C string are not continued behind its NUL. -/
theorem takeWhile_isBlank_cstr (str : List UInt8) :
    str.takeWhile isBlank = (cstr str).takeWhile isBlank := by
  induction str with
  | nil => rfl
  | cons c cs ih =>
    by_cases hc : c = 0
    · subst hc
      simp [cstr, isBlank]
    · rw [cstr_cons_of_ne hc, List.takeWhile_cons, List.takeWhile_cons, ih]

/-- **`AllTrim`** leaves the trimmed string in the buffer. -/
theorem cstr_allTrim (str : List UInt8) : cstr (allTrim str) = trimmed (cstr str) := by
  have hpre : cstr str <+: str := List.takeWhile_prefix _
  have hend : trimEnd str (cstr str).length = ((cstr str).rdropWhile isBlank).length := by
    rw [trimEnd_eq str hpre.length_le, ← List.prefix_iff_eq_take.1 hpre]
  have htake : str.take (trimEnd str (cstr str).length) = (cstr str).rdropWhile isBlank := by
    rw [hend]
    exact (List.prefix_iff_eq_take.1 ((List.rdropWhile_prefix isBlank _).trans hpre)).symm
  have hkept : (str.drop (str.takeWhile isBlank).length).take
      (trimEnd str (cstr str).length - (str.takeWhile isBlank).length) = trimmed (cstr str) := by
    rw [← List.drop_take, htake, trimmed_eq_drop, ← takeWhile_isBlank_cstr]
  rw [allTrim, hkept]
  exact cstr_append_zero (fun h ↦ zero_notMem_cstr str (trimmed_subset _ h)) _

/-! ### The indices of `AllTrim` -/

/-- The indices that the second loop of `AllTrim` reads, from `j = n - 1` on. The character is
tested before the index is. -/
def trimEndReads (str : List UInt8) : ℕ → List ℤ
  | 0 => [-1]
  | j + 1 => (j : ℤ) :: if isBlank (str.getD j 0) then trimEndReads str j else []

/-- The indices that `AllTrim` reads and writes: those of the first loop, of `strlen`, of the second
loop, of the copying loop, and of the NUL that is stored and read back. -/
def allTrimAccesses (str : List UInt8) : List ℤ :=
  let i := (str.takeWhile isBlank).length
  let k := trimEnd str (cstr str).length - i
  (List.range (i + 1)).map (fun (n : ℕ) ↦ (n : ℤ)) ++
    (List.range ((cstr str).length + 1)).map (fun (n : ℕ) ↦ (n : ℤ)) ++
    trimEndReads str (cstr str).length ++
    (List.range k).flatMap (fun (n : ℕ) ↦ [((n + i : ℕ) : ℤ), (n : ℤ)]) ++ [(k : ℤ), (k : ℤ)]

/-- `AllTrim` leaves the trimmed string in place, for good, without leaving the string. -/
structure AllTrimExact (str : List UInt8) : Prop where
  trims : cstr (allTrim str) = trimmed (cstr str)
  idempotent : cstr (allTrim (allTrim str)) = cstr (allTrim str)
  inside : ∀ i ∈ allTrimAccesses str, 0 ≤ i ∧ i ≤ (cstr str).length

/-- The second loop starts at the last character and goes down. -/
theorem lt_of_mem_trimEndReads {str : List UInt8} {n : ℕ} {i : ℤ} (h : i ∈ trimEndReads str n) :
    i < n := by
  induction n with
  | zero =>
    rw [trimEndReads, List.mem_singleton] at h
    omega
  | succ n ih =>
    rw [trimEndReads, List.mem_cons] at h
    rcases h with h | h
    · omega
    · split at h
      · have := ih h
        omega
      · cases h

/-- It stops inside the string if there is a character to stop at, ... -/
theorem nonneg_of_mem_trimEndReads {str : List UInt8} {n : ℕ}
    (hstop : ∃ k < n, isBlank (str.getD k 0) = false) {i : ℤ} (h : i ∈ trimEndReads str n) :
    0 ≤ i := by
  induction n with
  | zero =>
    obtain ⟨k, hk, -⟩ := hstop
    omega
  | succ n ih =>
    obtain ⟨k, hk, hblank⟩ := hstop
    rw [trimEndReads, List.mem_cons] at h
    rcases h with h | h
    · omega
    · split at h
      · next hn =>
        have hne : k ≠ n := fun heq ↦ by
          rw [heq, hn] at hblank
          cases hblank
        exact ih ⟨k, by omega, hblank⟩ h
      · cases h

/-- ... and reads the byte in front of a string of blanks. -/
theorem neg_one_mem_trimEndReads {str : List UInt8} {n : ℕ}
    (h : ∀ k < n, isBlank (str.getD k 0) = true) : -1 ∈ trimEndReads str n := by
  induction n with
  | zero => exact List.mem_singleton_self _
  | succ n ih =>
    rw [trimEndReads, if_pos (h n (Nat.lt_succ_self n))]
    exact List.mem_cons_of_mem _ (ih fun k hk ↦ h k (by omega))

theorem trimEnd_le (str : List UInt8) (n : ℕ) : trimEnd str n ≤ n := by
  induction n with
  | zero => exact le_refl _
  | succ n ih =>
    rw [trimEnd]
    split <;> omega

/-- The characters of a C string are those at the front of its buffer. -/
theorem getD_cstr {str : List UInt8} {k : ℕ} (h : k < (cstr str).length) :
    (cstr str).getD k 0 = str.getD k 0 := by
  have hpre : cstr str <+: str := List.takeWhile_prefix _
  rw [List.getD_eq_getElem _ 0 h, List.getD_eq_getElem _ 0 (h.trans_le hpre.length_le)]
  exact hpre.getElem h

/-- All other accesses are inside the string. -/
theorem allTrimAccesses_inside (str : List UInt8) {i : ℤ} (h : i ∈ allTrimAccesses str) :
    i ∈ trimEndReads str (cstr str).length ∨ 0 ≤ i ∧ i ≤ (cstr str).length := by
  have hblanks : (str.takeWhile isBlank).length ≤ (cstr str).length := by
    rw [takeWhile_isBlank_cstr]
    exact (List.takeWhile_prefix _).length_le
  have hend := trimEnd_le str (cstr str).length
  simp only [allTrimAccesses, List.mem_append, List.mem_map, List.mem_range, List.mem_flatMap,
    List.mem_cons, List.not_mem_nil, or_false] at h
  rcases h with (((⟨n, hn, rfl⟩ | ⟨n, hn, rfl⟩) | h) | ⟨n, hn, rfl | rfl⟩) | rfl | rfl
  · exact Or.inr (by omega)
  · exact Or.inr (by omega)
  · exact Or.inl h
  all_goals exact Or.inr (by omega)

theorem trimEndReads_subset (str : List UInt8) {i : ℤ}
    (h : i ∈ trimEndReads str (cstr str).length) : i ∈ allTrimAccesses str := by
  rw [allTrimAccesses]
  exact List.mem_append_left _ (List.mem_append_left _ (List.mem_append_right _ h))

/-- A trimmed string has nothing to trim. -/
theorem trimmed_trimmed (s : List UInt8) : trimmed (trimmed s) = trimmed s := by
  have hright : (trimmed s).rdropWhile isBlank = trimmed s := by
    rw [List.rdropWhile_eq_self_iff]
    intro hne
    have hsuf : trimmed s <:+ s.rdropWhile isBlank := List.dropWhile_suffix _
    have hne' : s.rdropWhile isBlank ≠ [] := fun hnil ↦ hne (by rw [trimmed, hnil]; rfl)
    rw [hsuf.getLast hne]
    exact List.rdropWhile_last_not isBlank s hne'
  rw [trimmed, hright]
  exact List.dropWhile_idempotent _ _

/-- **`AllTrim` is exact and stays inside the string if and only if the string has a character
other than a blank.** -/
theorem allTrim_exact_iff (str : List UInt8) :
    AllTrimExact str ↔ ∃ c ∈ cstr str, isBlank c = false := by
  constructor
  · intro h
    by_contra hcon
    have hall : ∀ k < (cstr str).length, isBlank (str.getD k 0) = true := by
      intro k hk
      rw [← getD_cstr hk, List.getD_eq_getElem _ 0 hk, ← Bool.not_eq_false]
      exact fun hblank ↦ hcon ⟨_, List.getElem_mem hk, hblank⟩
    have hread := h.inside _ (trimEndReads_subset str (neg_one_mem_trimEndReads hall))
    omega
  · rintro ⟨c, hc, hblank⟩
    obtain ⟨k, hk, rfl⟩ := List.getElem_of_mem hc
    have hstop : isBlank (str.getD k 0) = false := by
      rw [← getD_cstr hk, List.getD_eq_getElem _ 0 hk]
      exact hblank
    refine ⟨cstr_allTrim str, ?_, ?_⟩
    · rw [cstr_allTrim, cstr_allTrim, trimmed_trimmed]
    · intro i hi
      rcases allTrimAccesses_inside str hi with hread | hinside
      · have hlt := lt_of_mem_trimEndReads hread
        have hnonneg := nonneg_of_mem_trimEndReads ⟨k, hk, hstop⟩ hread
        omega
      · exact hinside

/-- The line that `fgets` leaves empty at the end of the file. -/
theorem allTrim_not_exact_empty : ¬AllTrimExact [0] := fun h ↦
  absurd (h.inside (-1) (by decide)) (by decide)

/-! ### White space -/

/-- The characters `' '`, `'\t'`, `'\r'` and `'\n'`. -/
def isWhite (c : UInt8) : Bool :=
  c == 32 || c == 9 || c == 13 || c == 10

/-- A string without the white space at its two ends. -/
def trimWhite (s : List UInt8) : List UInt8 :=
  (s.dropWhile isWhite).rdropWhile isWhite

/-- `RightTrim`. -/
def rightTrim (str : List UInt8) : List UInt8 :=
  let k := ((cstr str).rdropWhile isWhite).length
  str.take k ++ 0 :: str.drop (k + 1)

/-- `LeftTrim`. The `strcpy` moves the string, its NUL included, to the front. -/
def leftTrim (str : List UInt8) : List UInt8 :=
  let s := (cstr str).dropWhile isWhite
  if s.length < (cstr str).length then s ++ 0 :: str.drop (s.length + 1) else str

/-- `IsDigitBuf`. -/
def isDigitBuf (sBuf : List UInt8) (nLen : ℕ) : Bool :=
  (sBuf.take nLen).all Decimal.isDigit

theorem cstr_leftTrim (str : List UInt8) :
    cstr (leftTrim str) = (cstr str).dropWhile isWhite := by
  have hsuf : (cstr str).dropWhile isWhite <:+ cstr str := List.dropWhile_suffix _
  have hz : (0 : UInt8) ∉ (cstr str).dropWhile isWhite := fun h ↦
    zero_notMem_cstr str (hsuf.subset h)
  rw [leftTrim]
  split
  · exact cstr_append_zero hz _
  · next hlen => exact (hsuf.eq_of_length_le (by omega)).symm

theorem cstr_rightTrim (s : List UInt8) : cstr (rightTrim s) = (cstr s).rdropWhile isWhite := by
  have hpre : (cstr s).rdropWhile isWhite <+: cstr s := List.rdropWhile_prefix _ _
  have htake : s.take ((cstr s).rdropWhile isWhite).length = (cstr s).rdropWhile isWhite :=
    (List.prefix_iff_eq_take.1 (hpre.trans (List.takeWhile_prefix _))).symm
  rw [rightTrim, htake]
  exact cstr_append_zero (fun h0 ↦ zero_notMem_cstr s (hpre.subset h0)) _

/-- Dropping from the right goes on into the left part only when it drops the whole right part. -/
theorem rdropWhile_append (p : UInt8 → Bool) (s t : List UInt8) :
    (s ++ t).rdropWhile p =
      if t.rdropWhile p = [] then s.rdropWhile p else s ++ t.rdropWhile p := by
  simp only [List.rdropWhile, List.reverse_append, List.dropWhile_append, List.reverse_eq_nil_iff,
    List.isEmpty_iff]
  split
  · rfl
  · rw [List.reverse_append, List.reverse_reverse]

/-- Text that does not start with white space is not white space only. -/
theorem rdropWhile_dropWhile_eq_nil {p : UInt8 → Bool} {s : List UInt8}
    (h : (s.dropWhile p).rdropWhile p = []) : s.dropWhile p = [] := by
  by_contra hne
  have hhead := List.head_dropWhile_not p hne
  rw [List.rdropWhile_eq_nil_iff.1 h _ (List.head_mem hne)] at hhead
  cases hhead

/-- The white space in front of a text does not depend on the white space behind it. -/
theorem trimWhite_append {s w : List UInt8} (hw : ∀ c ∈ w, isWhite c = true) :
    trimWhite (s ++ w) = trimWhite s := by
  induction w using List.reverseRecOn with
  | nil => rw [List.append_nil]
  | append_singleton w c ih =>
    have hc : isWhite c = true := hw c (List.mem_append_right _ List.mem_cons_self)
    rw [← ih fun d hd ↦ hw d (List.mem_append_left _ hd), ← List.append_assoc, trimWhite,
      List.dropWhile_append]
    split
    · next hnil =>
      rw [List.isEmpty_iff] at hnil
      simp [trimWhite, hnil, hc]
    · rw [List.rdropWhile_concat_pos _ _ _ hc, trimWhite]

end Sunda
