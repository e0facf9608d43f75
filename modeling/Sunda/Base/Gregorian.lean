import Mathlib.Algebra.BigOperators.Intervals
import Mathlib.Algebra.Order.BigOperators.Group.Finset
import Mathlib.Logic.Function.Iterate
import Mathlib.Tactic.Ring

/-!
# The proleptic Gregorian calendar

Dates from the first of January of year 0 on, ordered day by day.

`Date.tomorrow` is what the calendar says about consecutive days and is the only thing that a
distance between dates refers to: `DaysTo a b n` holds when `n` steps of `tomorrow` lead from `a` to
`b`, or `-n` steps from `b` to `a`. `Date.dayNumber` counts the days since the epoch by whole years,
whole months and days.

* `dayNumber_tomorrow` is the step: the day number grows by one, over the ends of months and years.
* `dayNumber_injective` rests on the lexicographic order of year, month and day alone.
* `daysTo_iff` puts the two together: the distance is the difference of the day numbers, so it is
  antisymmetric and additive because differences are.
-/

namespace Gregorian

/-- A leap year: divisible by 4 and not by 100, or divisible by 400. -/
def IsLeap (y : ℕ) : Prop :=
  (y % 4 = 0 ∧ y % 100 ≠ 0) ∨ y % 400 = 0

instance (y : ℕ) : Decidable (IsLeap y) :=
  inferInstanceAs (Decidable (_ ∨ _))

/-- The number of days of a year. -/
def yearLength (y : ℕ) : ℕ :=
  if IsLeap y then 366 else 365

/-- The number of days of a month of a year. -/
def monthLength (y : ℕ) : ℕ → ℕ
  | 2 => if IsLeap y then 29 else 28
  | 4 | 6 | 9 | 11 => 30
  | _ => 31

theorem monthLength_le (y m : ℕ) : monthLength y m ≤ 31 := by
  unfold monthLength
  split <;> (try split) <;> omega

/-- The twelve months make up the year. -/
theorem sum_monthLength (y : ℕ) : ∑ m ∈ Finset.Ico 1 13, monthLength y m = yearLength y := by
  simp only [Finset.sum_Ico_eq_sum_range, Finset.sum_range_succ, Finset.sum_range_zero, monthLength,
    yearLength]
  split <;> rfl

/-- A day of the calendar. -/
@[ext]
structure Date where
  year : ℕ
  month : ℕ
  day : ℕ
  month_pos : 1 ≤ month
  month_le : month ≤ 12
  day_pos : 1 ≤ day
  day_le : day ≤ monthLength year month
  deriving DecidableEq

namespace Date

/-- The first day of a month. -/
def firstOf (y m : ℕ) (h₁ : 1 ≤ m) (h₂ : m ≤ 12) : Date where
  year := y
  month := m
  day := 1
  month_pos := h₁
  month_le := h₂
  day_pos := le_refl 1
  day_le := by unfold monthLength; split <;> (try split) <;> omega

/-- The day after: the next day of the month, or the first of the next month, or of the next
year. -/
def tomorrow (a : Date) : Date :=
  if h : a.day < monthLength a.year a.month then
    { a with day := a.day + 1, day_pos := by omega, day_le := h }
  else if h : a.month < 12 then
    firstOf a.year (a.month + 1) (by omega) h
  else
    firstOf (a.year + 1) 1 (le_refl 1) (by omega)

/-- The number of days from the beginning of the month `m` of year `y` back to the epoch. -/
def monthStart (y m : ℕ) : ℕ :=
  ∑ i ∈ Finset.range y, yearLength i + ∑ i ∈ Finset.Ico 1 m, monthLength y i

/-- The number of the day, the epoch being day 1. -/
def dayNumber (a : Date) : ℕ :=
  monthStart a.year a.month + a.day

theorem monthStart_succ_month (y : ℕ) {m : ℕ} (h : 1 ≤ m) :
    monthStart y (m + 1) = monthStart y m + monthLength y m := by
  rw [monthStart, monthStart, Finset.sum_Ico_succ_top h, add_assoc]

theorem monthStart_succ_year (y : ℕ) : monthStart (y + 1) 1 = monthStart y 13 := by
  rw [monthStart, monthStart, sum_monthLength, Finset.sum_range_succ, Finset.Ico_self,
    Finset.sum_empty, add_zero]

theorem monthStart_mono_month (y : ℕ) {m m' : ℕ} (h : m ≤ m') :
    monthStart y m ≤ monthStart y m' :=
  Nat.add_le_add_left (Finset.sum_le_sum_of_subset (Finset.Ico_subset_Ico_right h)) _

theorem monthStart_mono_year {y y' : ℕ} (h : y ≤ y') : monthStart y 1 ≤ monthStart y' 1 := by
  induction h with
  | refl => exact le_refl _
  | step _ ih =>
    rw [monthStart_succ_year]
    exact ih.trans (monthStart_mono_month _ (by omega))

/-- **One day on, the day number is one more.** -/
theorem dayNumber_tomorrow (a : Date) : a.tomorrow.dayNumber = a.dayNumber + 1 := by
  have hlast := a.day_le
  unfold tomorrow
  split_ifs with hday hmonth
  · rfl
  · have hstep := monthStart_succ_month a.year a.month_pos
    simp only [dayNumber, firstOf, hstep]
    omega
  · -- the last day of December
    have hdec : a.month = 12 := by have := a.month_le; omega
    have hstep := monthStart_succ_month a.year a.month_pos
    have hyear := monthStart_succ_year a.year
    simp only [dayNumber, firstOf, hyear]
    rw [hdec] at hstep hlast hday ⊢
    rw [show (13 : ℕ) = 12 + 1 from rfl, hstep]
    omega

theorem dayNumber_iterate (a : Date) (n : ℕ) : (tomorrow^[n] a).dayNumber = a.dayNumber + n := by
  induction n with
  | zero => rfl
  | succ n ih => rw [Function.iterate_succ_apply', dayNumber_tomorrow, ih, add_assoc]

/-- A day lies within its month. -/
theorem dayNumber_le (a : Date) : a.dayNumber ≤ monthStart a.year (a.month + 1) := by
  rw [monthStart_succ_month a.year a.month_pos]
  exact Nat.add_le_add_left a.day_le _

/-- A date is within its year. -/
theorem dayNumber_le_next (a : Date) : a.dayNumber ≤ monthStart (a.year + 1) 1 :=
  calc a.dayNumber ≤ monthStart a.year (a.month + 1) := a.dayNumber_le
    _ ≤ monthStart a.year 13 := monthStart_mono_month _ (by have := a.month_le; omega)
    _ = monthStart (a.year + 1) 1 := (monthStart_succ_year _).symm

theorem dayNumber_le_year (a : Date) : a.dayNumber ≤ 366 * (a.year + 1) := by
  have hyear : ∀ i ∈ Finset.range (a.year + 1), yearLength i ≤ 366 := fun i _ ↦ by
    unfold yearLength
    split <;> omega
  calc a.dayNumber ≤ monthStart (a.year + 1) 1 := a.dayNumber_le_next
    _ = ∑ i ∈ Finset.range (a.year + 1), yearLength i := by
      rw [monthStart, Finset.Ico_self, Finset.sum_empty, add_zero]
    _ ≤ ∑ _i ∈ Finset.range (a.year + 1), 366 := Finset.sum_le_sum hyear
    _ = 366 * (a.year + 1) := by
      rw [Finset.sum_const_nat fun _ _ ↦ rfl, Finset.card_range, Nat.mul_comm]

theorem day_le_31 (a : Date) : a.day ≤ 31 :=
  a.day_le.trans (monthLength_le _ _)

theorem lt_dayNumber (a : Date) : monthStart a.year a.month < a.dayNumber := by
  have := a.day_pos
  rw [dayNumber]
  omega

theorem dayNumber_lt_of_year_lt {a b : Date} (h : a.year < b.year) :
    a.dayNumber < b.dayNumber :=
  calc a.dayNumber ≤ monthStart (a.year + 1) 1 := a.dayNumber_le_next
    _ ≤ monthStart b.year 1 := monthStart_mono_year h
    _ ≤ monthStart b.year b.month := monthStart_mono_month _ b.month_pos
    _ < b.dayNumber := b.lt_dayNumber

theorem dayNumber_lt_of_month_lt {a b : Date} (hy : a.year = b.year) (h : a.month < b.month) :
    a.dayNumber < b.dayNumber :=
  calc a.dayNumber ≤ monthStart a.year (a.month + 1) := a.dayNumber_le
    _ ≤ monthStart a.year b.month := monthStart_mono_month _ h
    _ = monthStart b.year b.month := by rw [hy]
    _ < b.dayNumber := b.lt_dayNumber

/-- Different dates have different numbers. -/
theorem dayNumber_injective : Function.Injective dayNumber := by
  intro a b h
  have hy : a.year = b.year := by
    by_contra hne
    rcases Nat.lt_or_gt_of_ne hne with hlt | hlt
    · exact absurd h (dayNumber_lt_of_year_lt hlt).ne
    · exact absurd h (dayNumber_lt_of_year_lt hlt).ne'
  have hm : a.month = b.month := by
    by_contra hne
    rcases Nat.lt_or_gt_of_ne hne with hlt | hlt
    · exact absurd h (dayNumber_lt_of_month_lt hy hlt).ne
    · exact absurd h (dayNumber_lt_of_month_lt hy.symm hlt).ne'
  have hd : a.day = b.day := by
    rw [dayNumber, dayNumber, hy, hm] at h
    omega
  exact Date.ext hy hm hd

end Date

/-- **The signed number of days from `a` to `b`**: that many days after `a` is `b`, or, for a
negative number, that many days after `b` is `a`. -/
def DaysTo (a b : Date) (n : ℤ) : Prop :=
  (0 ≤ n ∧ Date.tomorrow^[n.toNat] a = b) ∨ (n < 0 ∧ Date.tomorrow^[(-n).toNat] b = a)

/-- The calendar's distance is the difference of the day numbers. -/
theorem daysTo_iff {a b : Date} {n : ℤ} :
    DaysTo a b n ↔ n = (b.dayNumber : ℤ) - a.dayNumber := by
  -- a date is reached in `k` days iff its number is `k` more
  have reach : ∀ (x y : Date) (k : ℕ),
      Date.tomorrow^[k] x = y ↔ x.dayNumber + k = y.dayNumber := by
    intro x y k
    rw [← Date.dayNumber_iterate x k]
    exact Date.dayNumber_injective.eq_iff.symm
  rw [DaysTo, reach, reach]
  omega

theorem DaysTo.neg {a b : Date} {n : ℤ} (h : DaysTo a b n) : DaysTo b a (-n) := by
  rw [daysTo_iff] at h ⊢
  omega

theorem DaysTo.add {a b c : Date} {m n : ℤ} (h : DaysTo a b n) (h' : DaysTo b c m) :
    DaysTo a c (m + n) := by
  rw [daysTo_iff] at h h' ⊢
  omega

/-- The first day. -/
def epoch : Date :=
  Date.firstOf 0 1 (le_refl 1) (by omega)

/-- Every number from 1 on is that of a day. -/
theorem exists_dayNumber_eq {k : ℕ} (h : 1 ≤ k) : ∃ a : Date, a.dayNumber = k := by
  refine ⟨Date.tomorrow^[k - 1] epoch, ?_⟩
  have hepoch : epoch.dayNumber = 1 := rfl
  rw [Date.dayNumber_iterate, hepoch]
  omega

/-- A date is up to a year if its number is up to the days of the years. -/
theorem Date.year_le_iff (a : Date) (y : ℕ) :
    a.year ≤ y ↔ a.dayNumber ≤ Date.monthStart (y + 1) 1 := by
  constructor
  · intro h
    exact a.dayNumber_le_next.trans (Date.monthStart_mono_year (by omega))
  · intro h
    by_contra hcon
    have hlt : Date.monthStart (y + 1) 1 < a.dayNumber :=
      calc Date.monthStart (y + 1) 1 ≤ Date.monthStart a.year 1 :=
            Date.monthStart_mono_year (by omega)
        _ ≤ Date.monthStart a.year a.month := Date.monthStart_mono_month _ a.month_pos
        _ < a.dayNumber := a.lt_dayNumber
    omega

/-- **Whether a number of days leads to a date up to a given year** is a question about day
numbers. -/
theorem exists_daysTo_iff (a : Date) (n : ℤ) (y : ℕ) :
    (∃ t : Date, t.year ≤ y ∧ DaysTo a t n) ↔
      1 ≤ a.dayNumber + n ∧ a.dayNumber + n ≤ Date.monthStart (y + 1) 1 := by
  constructor
  · rintro ⟨t, ht, h⟩
    rw [daysTo_iff] at h
    rw [Date.year_le_iff] at ht
    have hpos := t.lt_dayNumber
    omega
  · rintro ⟨hlo, hhi⟩
    obtain ⟨t, ht⟩ := exists_dayNumber_eq (k := (a.dayNumber + n).toNat) (by omega)
    refine ⟨t, ?_, ?_⟩
    · rw [Date.year_le_iff]
      omega
    · rw [daysTo_iff]
      omega

end Gregorian
