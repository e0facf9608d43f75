import Sunda.Base.Gregorian
import Mathlib.Algebra.BigOperators.Ring.Finset
import Mathlib.Tactic.IntervalCases

/-!
# Dates (`funtime.c`)

`checkdate`, and `DiffDate` with its macros: the years between two dates, the months of either year
and the days are added up in three loops, on the dates in order; the sign of a swap comes last.

`checkdate` accepts the dates of the calendar up to year 9999 (`checkdate_eq_zero_iff`), and each
loop adds up lengths of years or months of that calendar, so `DiffDate` is the difference of the two
day numbers (`diffDate_code`).
-/

namespace Sunda

open Gregorian (Date DaysTo)

/-- `___IsLeapYear`. -/
def isLeapYear (n : ℤ) : Bool :=
  (n.tmod 4 = 0 && n.tmod 100 ≠ 0) || n.tmod 400 = 0

/-- `YEARDAYS`. -/
def yearDays (a : ℤ) : ℤ :=
  if isLeapYear a then 366 else 365

/-- `MON2DAYS`. -/
def mon2Days (a : ℤ) : ℤ :=
  if isLeapYear a then 29 else 28

/-- `RMONTHDAYS`. -/
def rMonthDays (a b : ℤ) : ℤ :=
  if a = 2 then mon2Days b
  else if (a < 8 ∧ a.tmod 2 = 0) ∨ (8 ≤ a ∧ a.tmod 2 ≠ 0) then 30
  else 31

/-- `checkdate`. -/
def checkdate (iYear iMonth iDay : ℤ) : ℤ :=
  if iYear < 0 ∨ iYear > 9999 then -1
  else
    match iMonth with
    | 1 | 3 | 5 | 7 | 8 | 10 | 12 => if iDay ≤ 0 ∨ iDay > 31 then -3 else 0
    | 4 | 6 | 9 | 11 => if iDay ≤ 0 ∨ iDay > 30 then -3 else 0
    | 2 =>
      if (iYear.tmod 4 = 0 ∧ iYear.tmod 100 ≠ 0) ∨ iYear.tmod 400 = 0 then
        if iDay ≤ 0 ∨ iDay > 29 then -3 else 0
      else
        if iDay ≤ 0 ∨ iDay > 28 then -3 else 0
    | _ => -2

/-- The loop `for (i = lo; i < hi; i++) Days += f(i)`. -/
def forAdd (f : ℤ → ℤ) (lo hi days : ℤ) : ℤ :=
  (List.range (hi - lo).toNat).foldl (fun days (k : ℕ) ↦ days + f (lo + k)) days

/-- A `long` stored in an `int`. -/
def longToInt (v : ℤ) : ℤ :=
  (BitVec.ofInt 32 v).toInt

/-- `DiffDate` on two dates in order: what it does between the swap and the sign. `none` is the
return value -1. -/
def diffInOrder (lStartDate lEndDate : ℤ) : Option ℤ :=
  let sYear := longToInt (lStartDate.tdiv 10000)
  let eYear := longToInt (lEndDate.tdiv 10000)
  let sMonth := (lStartDate.tmod 10000).tdiv 100
  let eMonth := (lEndDate.tmod 10000).tdiv 100
  let sDays := lStartDate.tmod 100
  let eDays := lEndDate.tmod 100
  if checkdate sYear sMonth sDays ≠ 0 ∨ checkdate eYear eMonth eDays ≠ 0 then none
  else
    let days := forAdd yearDays sYear eYear 0
    let days := forAdd (fun i ↦ rMonthDays i eYear) 1 eMonth days
    let days := days + eDays
    let days := forAdd (fun i ↦ -rMonthDays i sYear) 1 sMonth days
    some (days - sDays)

/-- `DiffDate`: the number of days stored in `*piDiffDays` where it returns 0, `none` where it
returns -1. -/
def diffDate (lStartDate lEndDate : ℤ) : Option ℤ :=
  if lStartDate > lEndDate then
    (diffInOrder lEndDate lStartDate).map fun days ↦ -1 * days
  else
    (diffInOrder lStartDate lEndDate).map fun days ↦ 1 * days

/-! ### The macros and the calendar -/

theorem isLeapYear_natCast (y : ℕ) : isLeapYear y = decide (Gregorian.IsLeap y) := by
  rw [isLeapYear, Bool.eq_iff_iff, decide_eq_true_iff, Gregorian.IsLeap]
  simp only [Bool.or_eq_true, Bool.and_eq_true, decide_eq_true_eq,
    Int.tmod_eq_emod_of_nonneg (Int.natCast_nonneg y)]
  omega

theorem yearDays_natCast (y : ℕ) : yearDays y = Gregorian.yearLength y := by
  rw [yearDays, Gregorian.yearLength, isLeapYear_natCast]
  split <;> simp_all

theorem rMonthDays_natCast (y : ℕ) {m : ℕ} (h₁ : 1 ≤ m) (h₂ : m ≤ 12) :
    rMonthDays m y = Gregorian.monthLength y m := by
  rw [rMonthDays, mon2Days, isLeapYear_natCast]
  interval_cases m <;> simp [Gregorian.monthLength]

/-- What `checkdate` asks of the day, in a year and a month it accepts. -/
theorem checkdate_of_month {iYear iMonth : ℤ} (hy : 0 ≤ iYear ∧ iYear ≤ 9999)
    (hm : 1 ≤ iMonth ∧ iMonth ≤ 12) (iDay : ℤ) :
    checkdate iYear iMonth iDay =
      if iDay ≤ 0 ∨ iDay > rMonthDays iMonth iYear then -3 else 0 := by
  obtain ⟨hm₁, hm₂⟩ := hm
  unfold checkdate
  rw [if_neg (by omega)]
  by_cases hfeb : iMonth = 2
  · subst hfeb
    simp only [rMonthDays, mon2Days, isLeapYear, if_true, Bool.or_eq_true, Bool.and_eq_true,
      decide_eq_true_eq]
    split <;> rfl
  · interval_cases iMonth <;> first | exact absurd rfl hfeb | rfl

theorem checkdate_of_not_month {iYear iMonth : ℤ} (hm : ¬(1 ≤ iMonth ∧ iMonth ≤ 12))
    (iDay : ℤ) : checkdate iYear iMonth iDay ≠ 0 := by
  unfold checkdate
  split
  · omega
  · split <;> omega

theorem checkdate_of_not_year {iYear : ℤ} (hy : ¬(0 ≤ iYear ∧ iYear ≤ 9999)) (iMonth iDay : ℤ) :
    checkdate iYear iMonth iDay ≠ 0 := by
  unfold checkdate
  rw [if_pos (by omega)]
  omega

/-- `checkdate` accepts the dates of the calendar up to the year 9999. -/
theorem checkdate_eq_zero_iff (iYear iMonth iDay : ℤ) :
    checkdate iYear iMonth iDay = 0 ↔
      ∃ a : Date, a.year ≤ 9999 ∧ iYear = a.year ∧ iMonth = a.month ∧ iDay = a.day := by
  constructor
  · intro h
    have hyear : 0 ≤ iYear ∧ iYear ≤ 9999 := by
      by_contra hcon
      exact checkdate_of_not_year hcon _ _ h
    have hmonth : 1 ≤ iMonth ∧ iMonth ≤ 12 := by
      by_contra hcon
      exact checkdate_of_not_month hcon _ h
    obtain ⟨y, rfl⟩ := Int.eq_ofNat_of_zero_le hyear.1
    obtain ⟨m, rfl⟩ := Int.eq_ofNat_of_zero_le (show 0 ≤ iMonth by omega)
    rw [checkdate_of_month hyear hmonth, rMonthDays_natCast y (by omega) (by omega)] at h
    have hday : ¬(iDay ≤ 0 ∨ iDay > Gregorian.monthLength y m) := by
      by_contra hcon
      rw [if_pos hcon] at h
      omega
    obtain ⟨d, rfl⟩ := Int.eq_ofNat_of_zero_le (show 0 ≤ iDay by omega)
    exact ⟨⟨y, m, d, by omega, by omega, by omega, by omega⟩, Int.ofNat_le.mp hyear.2, rfl, rfl, rfl⟩
  · rintro ⟨⟨y, m, d, hm₁, hm₂, hd₁, hd₂⟩, hy, rfl, rfl, rfl⟩
    dsimp only at hy hm₁ hm₂ hd₁ hd₂ ⊢
    rw [checkdate_of_month (by omega) (by omega), rMonthDays_natCast y hm₁ hm₂]
    exact if_neg (by omega)

/-- A `long` that encodes, as YYYYMMDD, a date that `checkdate` accepts. -/
structure DateCode where
  code : ℤ
  year : ℤ
  month : ℤ
  day : ℤ
  code_eq : code = 10000 * year + 100 * month + day
  accepted : checkdate year month day = 0

namespace DateCode

theorem bounds (c : DateCode) :
    0 ≤ c.year ∧ c.year ≤ 9999 ∧ 1 ≤ c.month ∧ c.month ≤ 12 ∧ 1 ≤ c.day ∧
      c.day ≤ Gregorian.monthLength c.year.toNat c.month.toNat := by
  obtain ⟨a, hy, hyear, hmonth, hday⟩ := (checkdate_eq_zero_iff _ _ _).mp c.accepted
  have h₁ := a.month_pos
  have h₂ := a.month_le
  have h₃ := a.day_pos
  have h₄ := a.day_le
  rw [hyear, hmonth, hday, Int.toNat_natCast, Int.toNat_natCast]
  omega

/-- The day of the calendar that is encoded. -/
def date (c : DateCode) : Date where
  year := c.year.toNat
  month := c.month.toNat
  day := c.day.toNat
  month_pos := by have := c.bounds; omega
  month_le := by have := c.bounds; omega
  day_pos := by have := c.bounds; omega
  day_le := by have := c.bounds; omega

theorem year_eq (c : DateCode) : c.year = c.date.year :=
  (Int.toNat_of_nonneg c.bounds.1).symm

theorem month_eq (c : DateCode) : c.month = c.date.month :=
  (Int.toNat_of_nonneg (by have := c.bounds; omega)).symm

theorem day_eq (c : DateCode) : c.day = c.date.day :=
  (Int.toNat_of_nonneg (by have := c.bounds; omega)).symm

theorem day_le_31 (c : DateCode) : c.day ≤ 31 := by
  have hle := c.date.day_le_31
  rw [c.day_eq]
  omega

/-- `DiffDate` takes the code apart into the year, ... -/
theorem code_year (c : DateCode) : longToInt (c.code.tdiv 10000) = c.year := by
  obtain ⟨hy₁, hy₂, hm₁, hm₂, hd, -⟩ := c.bounds
  have hd' := c.day_le_31
  have hquot : c.code.tdiv 10000 = c.year := by
    rw [c.code_eq, Int.tdiv_eq_ediv_of_nonneg (by omega)]
    omega
  rw [hquot, longToInt, BitVec.toInt_ofInt]
  exact Int.bmod_eq_of_le (by omega) (by omega)

/-- ... the month ... -/
theorem code_month (c : DateCode) : (c.code.tmod 10000).tdiv 100 = c.month := by
  obtain ⟨hy₁, hy₂, hm₁, hm₂, hd, -⟩ := c.bounds
  have hd' := c.day_le_31
  have hcode : 0 ≤ c.code := by rw [c.code_eq]; omega
  rw [Int.tmod_eq_emod_of_nonneg hcode, Int.tdiv_eq_ediv_of_nonneg (by omega), c.code_eq]
  omega

/-- ... and the day. -/
theorem code_day (c : DateCode) : c.code.tmod 100 = c.day := by
  obtain ⟨hy₁, hy₂, hm₁, hm₂, hd, -⟩ := c.bounds
  have hd' := c.day_le_31
  have hcode : 0 ≤ c.code := by rw [c.code_eq]; omega
  rw [Int.tmod_eq_emod_of_nonneg hcode, c.code_eq]
  omega

theorem year_le_of_code_le {s e : DateCode} (h : s.code ≤ e.code) : s.year ≤ e.year := by
  have hs := s.bounds
  have he := e.bounds
  have hs' := s.day_le_31
  have he' := e.day_le_31
  rw [s.code_eq, e.code_eq] at h
  omega

end DateCode

/-! ### The three loops -/

theorem forAdd_eq (f : ℤ → ℤ) (lo hi days : ℤ) :
    forAdd f lo hi days = days + ∑ k ∈ Finset.range (hi - lo).toNat, f (lo + k) := by
  rw [forAdd]
  -- the accumulator holds the passes made so far
  induction (hi - lo).toNat with
  | zero => simp
  | succ n ih =>
    rw [List.range_succ, List.foldl_append, ih, Finset.sum_range_succ]
    simp only [List.foldl_cons, List.foldl_nil]
    ring

/-- A loop between two counts adds up the values in between. -/
theorem forAdd_natCast {f : ℤ → ℤ} {g : ℕ → ℤ} {lo hi : ℕ}
    (h : ∀ i, lo ≤ i → i < hi → f i = g i) (days : ℤ) :
    forAdd f lo hi days = days + ∑ i ∈ Finset.Ico lo hi, g i := by
  have hlen : ((hi : ℤ) - lo).toNat = hi - lo := by omega
  rw [forAdd_eq, hlen, Finset.sum_Ico_eq_sum_range]
  congr 1
  refine Finset.sum_congr rfl fun k hk ↦ ?_
  have hk' := Finset.mem_range.mp hk
  rw [← h (lo + k) (by omega) (by omega), Nat.cast_add]

/-- **On two dates in order, the loops come to the difference of the day numbers.** -/
theorem diffInOrder_code {s e : DateCode} (h : s.code ≤ e.code) :
    diffInOrder s.code e.code = some ((e.date.dayNumber : ℤ) - s.date.dayNumber) := by
  have hyears : s.date.year ≤ e.date.year := by
    have := DateCode.year_le_of_code_le h
    rw [s.year_eq, e.year_eq] at this
    omega
  have hloop₁ : forAdd yearDays s.date.year e.date.year 0 = _ :=
    forAdd_natCast (fun i _ _ ↦ yearDays_natCast i) 0
  have hloop₂ : ∀ days, forAdd (fun i ↦ rMonthDays i e.date.year) (1 : ℕ) e.date.month days = _ :=
    forAdd_natCast fun i hi hlt ↦ rMonthDays_natCast e.date.year hi (hlt.le.trans e.date.month_le)
  have hloop₃ : ∀ days, forAdd (fun i ↦ -rMonthDays i s.date.year) (1 : ℕ) s.date.month days = _ :=
    forAdd_natCast fun i hi hlt ↦
      congrArg Neg.neg (rMonthDays_natCast s.date.year hi (hlt.le.trans s.date.month_le))
  rw [diffInOrder]
  simp only [DateCode.code_year, DateCode.code_month, DateCode.code_day]
  rw [if_neg (by simp [s.accepted, e.accepted]), s.year_eq, e.year_eq, s.month_eq, e.month_eq,
    s.day_eq, e.day_eq]
  have hone : (1 : ℤ) = (1 : ℕ) := rfl
  rw [hone, hloop₁, hloop₂, hloop₃, Finset.sum_neg_distrib]
  have hsplit := Finset.sum_range_add_sum_Ico Gregorian.yearLength hyears
  simp only [Date.dayNumber, Date.monthStart, ← hsplit]
  push_cast
  congr 1
  ring

/-- `DiffDate` in either order of the arguments. -/
theorem diffDate_code (s e : DateCode) :
    diffDate s.code e.code = some ((e.date.dayNumber : ℤ) - s.date.dayNumber) := by
  rw [diffDate]
  split_ifs with hswap
  · rw [diffInOrder_code hswap.le, Option.map_some]
    congr 1
    ring
  · rw [diffInOrder_code (not_lt.mp hswap), Option.map_some, one_mul]

/-- **`DiffDate` is the calendar difference.** -/
theorem diffDate_calendar (s e : DateCode) :
    ∃ n : ℤ, diffDate s.code e.code = some n ∧ DaysTo s.date e.date n ∧
      diffDate e.code s.code = some (-n) ∧
      ∀ m : DateCode, ∃ p q : ℤ, diffDate s.code m.code = some p ∧
        diffDate m.code e.code = some q ∧ n = p + q := by
  refine ⟨(e.date.dayNumber : ℤ) - s.date.dayNumber, diffDate_code s e,
    Gregorian.daysTo_iff.mpr rfl, ?_, ?_⟩
  · rw [diffDate_code]
    congr 1
    ring
  · intro m
    exact ⟨_, _, diffDate_code s m, diffDate_code m e, by ring⟩

/-- The leap day of the year 2000 lies between its two neighbours. -/
example : diffDate 20000228 20000301 = some 2 ∧ diffDate 20000301 20000228 = some (-2) := by
  decide

end Sunda
