import Sunda.Common.CheckDate

/-!
# Counting days (`funtime.c`)

`CountDate` moves a date by a number of days, one day at each pass of its loop, and writes the date
it arrives at.

* One pass with `step = 1` leads from a day to the next (`countStep_one`) and one pass with
  `step = -1` back (`countStep_neg_one`), over the ends of months and years; the loop is as many
  passes as there are days (`countStep_iterate`).
* So on dates up to the year 9999 the function agrees with the calendar, and with `DiffDate`, which
  counts by whole years and months (`countDate_moves`).
* Nothing stops the loop at the year 0 or 9999, and the function then returns 0 all the same: it is
  right about its result exactly when the target is a date that it can be given
  (`countDate_safe_iff`).

The result is filled up with blanks, not with zeros; `CheckDate` reads it all the same
(`checkDate_resultText`).
-/

namespace Sunda

open Bytes Decimal
open Gregorian (Date DaysTo)

/-- The date that the loop of `CountDate` works on. -/
structure DateVars where
  iYear : ℤ
  iMonth : ℤ
  iDays : ℤ
  deriving DecidableEq

/-- The month after or before, and the year that it is in. -/
def carryMonth (step iMonth iYear : ℤ) : ℤ × ℤ :=
  let iMonth := iMonth + step
  if iMonth ≤ 0 then (12, iYear + step)
  else if iMonth > 12 then (1, iYear + step)
  else (iMonth, iYear)

/-- One pass of the loop of `CountDate`. -/
def countStep (step : ℤ) (v : DateVars) : DateVars :=
  let iDays := v.iDays + step
  if iDays ≤ 0 ∨ iDays > rMonthDays v.iMonth v.iYear then
    let m := carryMonth step v.iMonth v.iYear
    ⟨m.2, m.1, if iDays ≤ 0 then rMonthDays m.1 m.2 else 1⟩
  else
    { v with iDays := iDays }

/-- `abs`, which returns `INT_MIN` for `INT_MIN`. -/
def absInt (n : ℤ) : ℤ :=
  if n = -2 ^ 31 then -2 ^ 31 else n.natAbs

/-- `CountDate`: the value returned and what `sResultDate` holds afterwards. -/
def countDate (sStartDate : List UInt8) (iOffset : ℤ) (sResultDate : List UInt8) :
    ℤ × List UInt8 :=
  let lStartDate := atol sStartDate
  let v : DateVars :=
    ⟨longToInt (lStartDate.tdiv 10000), (lStartDate.tmod 10000).tdiv 100, lStartDate.tmod 100⟩
  if checkdate v.iYear v.iMonth v.iDays ≠ 0 then (-1, sResultDate)
  else
    let step := if 0 ≤ iOffset then 1 else -1
    -- `i` runs from 1 to `abs(iOffset)`
    let v := (countStep step)^[(absInt iOffset).toNat] v
    -- the sum is one of `int`s
    let s := sprintfwd 8 (longToInt (v.iYear * 10000 + v.iMonth * 100 + v.iDays))
    (0, s ++ 0 :: sResultDate.drop (s.length + 1))

/-! ### One day at a time -/

/-- The variables hold a day of the calendar. -/
def DateVars.of (a : Date) : DateVars :=
  ⟨a.year, a.month, a.day⟩

theorem rMonthDays_date (a : Date) :
    rMonthDays a.month a.year = Gregorian.monthLength a.year a.month :=
  rMonthDays_natCast a.year a.month_pos a.month_le

theorem countStep_within {step : ℤ} {v : DateVars} (h₁ : 0 < v.iDays + step)
    (h₂ : v.iDays + step ≤ rMonthDays v.iMonth v.iYear) :
    countStep step v = { v with iDays := v.iDays + step } :=
  if_neg (by omega)

/-- Forwards over the end of a month: to the first of the next. -/
theorem countStep_last {y m : ℤ} {v : DateVars} (h₁ : 0 < v.iDays + 1)
    (h₂ : v.iDays + 1 > rMonthDays v.iMonth v.iYear)
    (hm : carryMonth 1 v.iMonth v.iYear = (m, y)) : countStep 1 v = ⟨y, m, 1⟩ := by
  rw [countStep, if_pos (Or.inr h₂), hm]
  exact congrArg (DateVars.mk y m) (if_neg (by omega))

/-- Backwards over the first of a month: to the last of the one before. -/
theorem countStep_first {y m : ℤ} {v : DateVars} (h : v.iDays = 1)
    (hm : carryMonth (-1) v.iMonth v.iYear = (m, y)) :
    countStep (-1) v = ⟨y, m, rMonthDays m y⟩ := by
  rw [countStep, if_pos (Or.inl (by omega)), hm]
  exact congrArg (DateVars.mk y m) (if_pos (by omega))

/-- A pass forwards goes to the next day. -/
theorem countStep_one (a : Date) : countStep 1 (.of a) = .of a.tomorrow := by
  have hday := a.day_le
  have hmonth := a.month_le
  have hlen := rMonthDays_date a
  have hpos : 0 < (a.day : ℤ) + 1 := by omega
  unfold Date.tomorrow
  split_ifs with hin hbefore
  · -- within the month
    have hle : (a.day : ℤ) + 1 ≤ rMonthDays a.month a.year := by omega
    exact countStep_within hpos hle
  · -- to the first of the next month
    have hgt : (a.day : ℤ) + 1 > rMonthDays a.month a.year := by omega
    have hcarry : carryMonth 1 a.month a.year = (((a.month + 1 : ℕ) : ℤ), (a.year : ℤ)) := by
      rw [carryMonth, if_neg (by omega), if_neg (by omega), Nat.cast_add, Nat.cast_one]
    exact countStep_last hpos hgt hcarry
  · -- to the first of January
    have hgt : (a.day : ℤ) + 1 > rMonthDays a.month a.year := by omega
    have hcarry : carryMonth 1 a.month a.year = (1, ((a.year + 1 : ℕ) : ℤ)) := by
      rw [carryMonth, if_neg (by omega), if_pos (by omega), Nat.cast_add, Nat.cast_one]
    exact countStep_last hpos hgt hcarry

/-- A pass backwards comes back from it. -/
theorem countStep_neg_one (a : Date) : countStep (-1) (.of a.tomorrow) = .of a := by
  have hday := a.day_pos
  have hlast := a.day_le
  have hmonth := a.month_pos
  have hlen := rMonthDays_date a
  unfold Date.tomorrow
  split_ifs with hin hbefore
  · -- within the month
    have hback : ((a.day + 1 : ℕ) : ℤ) + -1 = a.day := by omega
    have hpos : 0 < ((a.day + 1 : ℕ) : ℤ) + -1 := by omega
    have hle : ((a.day + 1 : ℕ) : ℤ) + -1 ≤ rMonthDays a.month a.year := by omega
    exact (countStep_within hpos hle).trans (congrArg (DateVars.mk _ _) hback)
  · -- from the first of the next month
    have hcarry : carryMonth (-1) ((a.month + 1 : ℕ) : ℤ) a.year =
        ((a.month : ℤ), (a.year : ℤ)) := by
      have hback : ((a.month + 1 : ℕ) : ℤ) + -1 = a.month := by omega
      rw [carryMonth, hback, if_neg (by omega), if_neg (by omega)]
    have hend : rMonthDays a.month a.year = a.day := by omega
    exact (countStep_first rfl hcarry).trans (congrArg (DateVars.mk _ _) hend)
  · -- from the first of January
    have hcarry : carryMonth (-1) ((1 : ℕ) : ℤ) ((a.year + 1 : ℕ) : ℤ) =
        ((a.month : ℤ), (a.year : ℤ)) := by
      have hdec : a.month = 12 := by
        have := a.month_le
        omega
      have hback : ((a.year + 1 : ℕ) : ℤ) + -1 = a.year := by omega
      rw [carryMonth, hback, if_pos (by decide), hdec]
      rfl
    have hend : rMonthDays a.month a.year = a.day := by omega
    exact (countStep_first rfl hcarry).trans (congrArg (DateVars.mk _ _) hend)

/-- **The loop arrives where the calendar says.** -/
theorem countStep_iterate {a t : Date} {n : ℤ} (h : DaysTo a t n) :
    (countStep (if 0 ≤ n then 1 else -1))^[n.natAbs] (.of a) = .of t := by
  have hforth : Function.Semiconj DateVars.of Date.tomorrow (countStep 1) :=
    fun b ↦ (countStep_one b).symm
  rcases h with ⟨hn, rfl⟩ | ⟨hn, rfl⟩
  · rw [if_pos hn, show n.natAbs = n.toNat by omega]
    exact ((hforth.iterate_right n.toNat) a).symm
  · rw [if_neg (by omega), show n.natAbs = (-n).toNat by omega]
    induction (-n).toNat with
    | zero => rfl
    | succ k ih =>
      rw [Function.iterate_succ_apply, Function.iterate_succ_apply', countStep_neg_one, ih]

/-! ### The date as a number and as text -/

/-- A day up to the year 9999 has an encoding. -/
def DateCode.ofDate (a : Date) (h : a.year ≤ 9999) : DateCode where
  code := 10000 * a.year + 100 * a.month + a.day
  year := a.year
  month := a.month
  day := a.day
  code_eq := rfl
  accepted := (checkdate_eq_zero_iff _ _ _).2 ⟨a, h, rfl, rfl, rfl⟩

theorem DateCode.code_lt (c : DateCode) : 0 ≤ c.code ∧ c.code < 10 ^ 8 := by
  have hbounds := c.bounds
  have hday := c.day_le_31
  rw [c.code_eq]
  omega

theorem DateCode.code_date (c : DateCode) :
    c.code = 10000 * c.date.year + 100 * c.date.month + c.date.day := by
  rw [← c.year_eq, ← c.month_eq, ← c.day_eq]
  exact c.code_eq

theorem DateCode.year_le (c : DateCode) : c.date.year ≤ 9999 := by
  have hbounds := c.bounds
  rw [c.year_eq] at hbounds
  omega

/-- A day as `CountDate` writes it. -/
def resultText (c : DateCode) : List UInt8 :=
  sprintfwd 8 c.code

theorem dateText_eq_sprintf0d (c : DateCode) :
    dateText c.date = sprintf0d 8 c.code.toNat := by
  have hm : ∀ d ∈ sprintf0d 2 c.date.month, isDigit d = true :=
    fun d ↦ isDigit_of_mem_sprintf0d
  have hd : ∀ d ∈ sprintf0d 2 c.date.day, isDigit d = true := fun d ↦ isDigit_of_mem_sprintf0d
  have hmd : ∀ d ∈ sprintf0d 2 c.date.month ++ sprintf0d 2 c.date.day, isDigit d = true :=
    fun d h ↦ (List.mem_append.1 h).elim (hm d) (hd d)
  have hval : scanDigits 0 (dateText c.date) = c.code.toNat := by
    rw [dateText, scanDigits_append (fun d ↦ isDigit_of_mem_sprintf0d) hmd,
      scanDigits_append hm hd, scanDigits_sprintf0d, scanDigits_sprintf0d, scanDigits_sprintf0d,
      List.length_append, month_text_length, day_text_length, c.code_date]
    omega
  have hlen := dateText_length c.year_le
  have h := eq_sprintf0d (s := dateText c.date) (fun d ↦ isDigit_of_mem_dateText) (by omega)
  rw [hlen, hval] at h
  exact h

theorem zero_notMem_resultText (c : DateCode) : (0 : UInt8) ∉ resultText c := by
  intro h
  rw [resultText, sprintfwd, List.mem_append] at h
  rcases h with h | h
  · exact absurd (List.eq_of_mem_replicate h) (by decide)
  · exact absurd (isDigit_of_mem_sprintfd h (by decide)) (by decide)

/-- Blanks in front of the date instead of zeros. -/
theorem resultText_eq (c : DateCode) : ∃ k s, (∀ d ∈ s, isDigit d = true) ∧
    resultText c = List.replicate k 32 ++ s ∧ dateText c.date = List.replicate k 48 ++ s := by
  have hnonneg := c.code_lt.1
  have hcode : ¬c.code < 0 := by omega
  refine ⟨8 - (natText c.code.natAbs).length, natText c.code.natAbs,
    fun d ↦ isDigit_of_mem_natText, ?_, ?_⟩
  · rw [resultText, sprintfwd, sprintfd, if_neg hcode]
  · rw [dateText_eq_sprintf0d, Int.toNat_of_nonneg hnonneg, sprintf0d, if_neg hcode]

/-- **`CheckDate` accepts what `CountDate` writes for a day up to the year 9999.** -/
theorem checkDate_resultText (c : DateCode) (rest : List UInt8) :
    checkDate (resultText c ++ 0 :: rest) = 0 := by
  have hcstr : cstr (resultText c ++ 0 :: rest) = resultText c :=
    cstr_append_zero (zero_notMem_resultText c) rest
  obtain ⟨k, s, hs, hres, hdate⟩ := resultText_eq c
  have hlen : (resultText c).length = 8 := by
    rw [← dateText_length c.year_le, hres, hdate]
    simp only [List.length_append, List.length_replicate]
  -- every field is the field of the date with blanks for zeros
  have hfield : ∀ i j, atoi (((resultText c).drop i).take j) =
      atoi (((dateText c.date).drop i).take j) := by
    intro i j
    rw [hres, hdate]
    simp only [List.drop_append, List.take_append, List.drop_replicate, List.take_replicate,
      List.length_replicate]
    exact atoi_replicate_blank _ fun d hd ↦ hs d (List.mem_of_mem_drop (List.mem_of_mem_take hd))
  have hread := (fieldsRead_iff (dateText_length c.year_le)
    (fun d ↦ isDigit_of_mem_dateText) c.year_le).2 rfl
  have hshort : ∀ i j, j ≤ 9 → ∀ s : List UInt8, ((s.drop i).take j).length ≤ 9 := by
    intro i j hj s
    rw [List.length_take]
    omega
  have htransfer : ∀ i j v, j ≤ 9 → Reads (((dateText c.date).drop i).take j) v →
      Reads (((resultText c).drop i).take j) v := by
    intro i j v hj h
    rw [reads_iff_atoi (hshort i j hj _)] at h ⊢
    rw [hfield, h]
  rw [checkDate_eq_zero_iff, hcstr]
  exact ⟨hlen, c.date, c.year_le, htransfer 0 4 _ (by decide) hread.year,
    htransfer 4 2 _ (by decide) hread.month, htransfer 6 2 _ (by decide) hread.day⟩

theorem atol_resultText (c : DateCode) (rest : List UInt8) :
    atol (resultText c ++ 0 :: rest) = c.code := by
  have hcode := c.code_lt
  rw [atol_append_zero, resultText, atol_sprintfwd 8 (by omega) (by omega)]

/-! ### Dates that a `CountDate` can reach -/

/-- Between two dates up to the year 9999 there are fewer days than an `int` can count. -/
theorem natAbs_lt_of_daysTo {a t : Date} {n : ℤ} (ha : a.year ≤ 9999) (ht : t.year ≤ 9999)
    (h : DaysTo a t n) : n.natAbs < 2 ^ 31 := by
  have hn := Gregorian.daysTo_iff.1 h
  have hsa := a.dayNumber_le_year
  have hst := t.dayNumber_le_year
  omega

/-- **On a target up to the year 9999.** -/
theorem countDate_of_daysTo {s : List UInt8} {c d : DateCode} {n : ℤ} (hs : atol s = c.code)
    (h : DaysTo c.date d.date n) (buf : List UInt8) :
    countDate s n buf =
      (0, resultText d ++ 0 :: buf.drop ((resultText d).length + 1)) := by
  have hn := natAbs_lt_of_daysTo c.year_le d.year_le h
  have habs : (absInt n).toNat = n.natAbs := by
    rw [absInt, if_neg (by omega), Int.toNat_natCast]
  have hrun := countStep_iterate h
  have hstart : (⟨c.year, c.month, c.day⟩ : DateVars) = .of c.date := by
    rw [c.year_eq, c.month_eq, c.day_eq]
    rfl
  have hcode : longToInt ((d.date.year : ℤ) * 10000 + (d.date.month : ℤ) * 100 + d.date.day) =
      d.code := by
    have hlt := d.code_lt
    have hsum : (d.date.year : ℤ) * 10000 + (d.date.month : ℤ) * 100 + d.date.day = d.code := by
      rw [d.code_date]
      ring
    rw [hsum, longToInt, BitVec.toInt_ofInt]
    exact Int.bmod_eq_of_le (by omega) (by omega)
  rw [countDate]
  simp only [hs, c.code_year, c.code_month, c.code_day]
  rw [if_neg (by simp [c.accepted]), habs, hstart, hrun]
  simp only [DateVars.of, hcode]
  rfl

/-- **`CountDate` moves by exactly the given number of days.** -/
theorem countDate_moves {s : List UInt8} {c : DateCode} (hs : atol s = c.code) {n : ℤ} {t : Date}
    (ht : t.year ≤ 9999) (h : DaysTo c.date t n) (buf : List UInt8) :
    ∃ res, countDate s n buf = (0, res) ∧
      atol res = 10000 * t.year + 100 * t.month + t.day ∧
      diffDate (atol s) (atol res) = some n ∧
      (∀ buf', ∃ res', countDate res (-n) buf' = (0, res') ∧ atol res' = atol s) ∧
      ∀ (m : ℤ) (u : Date), u.year ≤ 9999 → DaysTo t u m →
        ∀ buf', countDate res m buf' = countDate s (m + n) buf' := by
  have hres := atol_resultText (DateCode.ofDate t ht)
    (buf.drop ((resultText (DateCode.ofDate t ht)).length + 1))
  refine ⟨_, countDate_of_daysTo (d := DateCode.ofDate t ht) hs h buf, hres, ?_, ?_, ?_⟩
  · rw [hs, hres, diffDate_code]
    exact congrArg some (Gregorian.daysTo_iff.1 h).symm
  · intro buf'
    refine ⟨_, countDate_of_daysTo (d := c) hres h.neg buf', ?_⟩
    rw [atol_resultText, hs]
  · intro m u hu hm buf'
    rw [countDate_of_daysTo (d := DateCode.ofDate u hu) hres hm,
      countDate_of_daysTo (d := DateCode.ofDate u hu) hs (h.add hm)]

/-- From the leap day of 2000 to the first of March and back. -/
theorem countDate_moves_leapDay :
    ∃ res, countDate (text "20000229") 1 [] = (0, res) ∧
      atol res = 20000301 ∧
      diffDate (atol (text "20000229")) (atol res) = some 1 ∧
      (∀ buf', ∃ res', countDate res (-1) buf' = (0, res') ∧ atol res' = atol (text "20000229")) ∧
      ∀ (m : ℤ) (u : Date), u.year ≤ 9999 →
        DaysTo ⟨2000, 3, 1, by decide, by decide, by decide, by decide⟩ u m →
        ∀ buf', countDate res m buf' = countDate (text "20000229") (m + 1) buf' :=
  countDate_moves (c := ⟨20000229, 2000, 2, 29, by decide, by decide⟩)
    (t := ⟨2000, 3, 1, by decide, by decide, by decide, by decide⟩) (by decide) (by decide)
    (Or.inl ⟨by decide, by decide⟩) []

/-! ### Targets out of range -/

/-- `CountDate` gives a date that `CheckDate` accepts, or refuses and leaves the result alone. -/
def CountDateSafe (s : List UInt8) (c : DateCode) (n : ℤ) (buf : List UInt8) : Prop :=
  ((∃ t : Date, t.year ≤ 9999 ∧ DaysTo c.date t n) ∧
      ∃ res, countDate s n buf = (0, res) ∧ checkDate res = 0) ∨
    countDate s n buf = (-1, buf)

/-- No offset is refused. -/
theorem countDate_fst {s : List UInt8} {c : DateCode} (hs : atol s = c.code) (n : ℤ)
    (buf : List UInt8) : (countDate s n buf).1 = 0 := by
  rw [countDate]
  simp only [hs, c.code_year, c.code_month, c.code_day]
  rw [if_neg (by simp [c.accepted])]

/-- **`CountDate` is safe if and only if the day it is sent to lies in the years 0 to 9999.** -/
theorem countDate_safe_iff {s : List UInt8} {c : DateCode} (hs : atol s = c.code) (n : ℤ)
    (buf : List UInt8) :
    CountDateSafe s c n buf ↔
      1 ≤ c.date.dayNumber + n ∧ c.date.dayNumber + n ≤ Date.monthStart 10000 1 := by
  rw [← Gregorian.exists_daysTo_iff]
  constructor
  · rintro (⟨htarget, -⟩ | hrefused)
    · exact htarget
    · have hzero : (-1 : ℤ) = 0 := by
        rw [← countDate_fst hs n buf, hrefused]
      exact absurd hzero (by decide)
  · rintro ⟨t, ht, h⟩
    exact Or.inl ⟨⟨t, ht, h⟩, _, countDate_of_daysTo (d := DateCode.ofDate t ht) hs h buf,
      checkDate_resultText _ _⟩

/-- The day after the first of January 2000. -/
theorem countDate_safe_iff_second :
    CountDateSafe (text "20000101") ⟨20000101, 2000, 1, 1, by decide, by decide⟩ 1 [] ↔
      1 ≤ (Date.dayNumber ⟨2000, 1, 1, by decide, by decide, by decide, by decide⟩ : ℤ) + 1 ∧
        (Date.dayNumber ⟨2000, 1, 1, by decide, by decide, by decide, by decide⟩ : ℤ) + 1 ≤
          Date.monthStart 10000 1 :=
  countDate_safe_iff (c := ⟨20000101, 2000, 1, 1, by decide, by decide⟩) (by decide) 1 []

/-- The day after the last day of the year 9999. -/
theorem countDate_not_safe :
    ¬CountDateSafe (text "99991231") ⟨99991231, 9999, 12, 31, by decide, by decide⟩ 1
      (text "00000000") := by
  rintro (⟨-, res, hres, hcheck⟩ | hrefused)
  · have hnine : checkDate (countDate (text "99991231") 1 (text "00000000")).2 = -1 := by decide
    rw [hres, hcheck] at hnine
    exact absurd hnine (by decide)
  · exact absurd (congrArg Prod.fst hrefused) (by decide)

end Sunda
