import Sunda.Base.Bytes
import Sunda.Base.Decimal
import Sunda.Common.Funtime

/-!
# Checking a date given as text (`funtime.c`)

`CheckDate` and `CheckStrDate`, which have the same body, cut a text of eight characters into year,
month and day and convert each of them with `atoi`; `checkdate` decides on the three numbers.

* `IsDateText` is what the two functions are for: the text is YYYYMMDD for a day of the calendar.
* `checkDate_eq_zero_iff` is what they do: `atoi` is content with a numeral at the front of a field,
  so the fields may hold blanks, a sign or other characters behind the digits (`FieldsRead`).

On a text of eight digits the two agree (`fieldsRead_iff`), so that the function goes wrong on the
texts of eight characters that are not all digits and whose fields begin with a date, and on no
others (`checkDate_exact_iff`).
-/

namespace Sunda

open Bytes Decimal
open Gregorian (Date)

/-- The body of `CheckDate` and of `CheckStrDate`. -/
def checkFields (sDate : List UInt8) : ℤ :=
  let s := cstr sDate
  if s.length ≠ 8 then -1
  else if checkdate (atoi (s.take 4)) (atoi ((s.drop 4).take 2)) (atoi ((s.drop 6).take 2)) ≠ 0 then
    -1
  else 0

/-- `CheckDate`. -/
def checkDate (sDate : List UInt8) : ℤ :=
  checkFields sDate

/-- `CheckStrDate`. -/
def checkStrDate (sDate : List UInt8) : ℤ :=
  checkFields sDate

/-! ### Dates as text -/

/-- A day as YYYYMMDD. -/
def dateText (a : Date) : List UInt8 :=
  sprintf0d 4 a.year ++ (sprintf0d 2 a.month ++ sprintf0d 2 a.day)

/-- Eight decimal digits that denote a day of the years 0000 to 9999. -/
def IsDateText (s : List UInt8) : Prop :=
  ∃ a : Date, a.year ≤ 9999 ∧ s = dateText a

/-- The fields of a text begin with the numbers of a day. -/
structure FieldsRead (s : List UInt8) (a : Date) : Prop where
  year : Reads (s.take 4) a.year
  month : Reads ((s.drop 4).take 2) a.month
  day : Reads ((s.drop 6).take 2) a.day

theorem month_text_length (a : Date) : (sprintf0d 2 a.month).length = 2 :=
  sprintf0d_length (by decide) (by have := a.month_le; omega)

theorem day_text_length (a : Date) : (sprintf0d 2 a.day).length = 2 :=
  sprintf0d_length (by decide) (by have := a.day_le_31; omega)

theorem year_text_length {a : Date} (h : a.year ≤ 9999) : (sprintf0d 4 a.year).length = 4 :=
  sprintf0d_length (by decide) (by omega)

theorem dateText_length {a : Date} (h : a.year ≤ 9999) : (dateText a).length = 8 := by
  rw [dateText, List.length_append, List.length_append, year_text_length h, month_text_length,
    day_text_length]

theorem isDigit_of_mem_dateText {a : Date} {c : UInt8} (h : c ∈ dateText a) : isDigit c = true := by
  rw [dateText, List.mem_append, List.mem_append] at h
  rcases h with h | h | h <;> exact isDigit_of_mem_sprintf0d h

/-- The fields of a date. -/
theorem take_dateText {a : Date} (h : a.year ≤ 9999) :
    (dateText a).take 4 = sprintf0d 4 a.year ∧
      ((dateText a).drop 4).take 2 = sprintf0d 2 a.month ∧
      ((dateText a).drop 6).take 2 = sprintf0d 2 a.day := by
  have hy := year_text_length h
  have hm := month_text_length a
  have hd := day_text_length a
  have hdrop : (dateText a).drop 4 = sprintf0d 2 a.month ++ sprintf0d 2 a.day :=
    List.drop_left' hy
  refine ⟨List.take_left' hy, ?_, ?_⟩
  · rw [hdrop]
    exact List.take_left' hm
  · have hsix : (dateText a).drop 6 = ((dateText a).drop 4).drop 2 := by rw [List.drop_drop]
    rw [hsix, hdrop, List.drop_left' hm, List.take_of_length_le hd.le]

/-- **On a text of eight digits, the fields read as a day if and only if the text is that day.** -/
theorem fieldsRead_iff {s : List UInt8} (hlen : s.length = 8)
    (hs : ∀ c ∈ s, isDigit c = true) {a : Date} (ha : a.year ≤ 9999) :
    FieldsRead s a ↔ s = dateText a := by
  constructor
  · intro h
    have hy : s.take 4 = sprintf0d 4 a.year :=
      eq_sprintf0d_of_reads (fun c hc ↦ hs c (List.mem_of_mem_take hc))
        (by rw [List.length_take, hlen]; rfl) (by decide) (by decide) h.year
    have hm : (s.drop 4).take 2 = sprintf0d 2 a.month :=
      eq_sprintf0d_of_reads (fun c hc ↦ hs c (List.mem_of_mem_drop (List.mem_of_mem_take hc)))
        (by rw [List.length_take, List.length_drop, hlen]; rfl) (by decide) (by decide) h.month
    have hd : (s.drop 6).take 2 = sprintf0d 2 a.day :=
      eq_sprintf0d_of_reads (fun c hc ↦ hs c (List.mem_of_mem_drop (List.mem_of_mem_take hc)))
        (by rw [List.length_take, List.length_drop, hlen]; rfl) (by decide) (by decide) h.day
    have hrest : (s.drop 6).take 2 = (s.drop 4).drop 2 := by
      rw [List.drop_drop]
      exact List.take_of_length_le (by rw [List.length_drop, hlen])
    rw [dateText, ← hy, ← hm, ← hd, hrest, List.take_append_drop, List.take_append_drop]
  · rintro rfl
    obtain ⟨hy, hm, hd⟩ := take_dateText ha
    have hmonth := a.month_le
    have hday := a.day_le_31
    refine ⟨?_, ?_, ?_⟩
    · rw [hy, reads_iff_atoi (by rw [year_text_length ha]; decide), atoi_sprintf0d 4 (by omega)]
    · rw [hm, reads_iff_atoi (by rw [month_text_length]; decide), atoi_sprintf0d 2 (by omega)]
    · rw [hd, reads_iff_atoi (by rw [day_text_length]; decide), atoi_sprintf0d 2 (by omega)]

/-! ### What is accepted -/

/-- **`CheckDate` accepts the texts of eight characters whose fields begin with a day.** -/
theorem checkDate_eq_zero_iff (sDate : List UInt8) :
    checkDate sDate = 0 ↔ (cstr sDate).length = 8 ∧
      ∃ a : Date, a.year ≤ 9999 ∧ FieldsRead (cstr sDate) a := by
  by_cases hlen : (cstr sDate).length = 8
  · have hcode : checkDate sDate = 0 ↔ checkdate (atoi ((cstr sDate).take 4))
        (atoi (((cstr sDate).drop 4).take 2)) (atoi (((cstr sDate).drop 6).take 2)) = 0 := by
      rw [checkDate, checkFields, if_neg (by simp [hlen])]
      split
      · next hne => simp [hne]
      · next heq => simp only [not_not.1 heq]
    rw [hcode, checkdate_eq_zero_iff]
    have hfour : ((cstr sDate).take 4).length ≤ 9 := by
      rw [List.length_take]
      omega
    have htwo : ∀ n, (((cstr sDate).drop n).take 2).length ≤ 9 := fun n ↦ by
      rw [List.length_take]
      omega
    constructor
    · rintro ⟨a, ha, hy, hm, hd⟩
      exact ⟨hlen, a, ha, (reads_iff_atoi hfour _).2 hy, (reads_iff_atoi (htwo 4) _).2 hm,
        (reads_iff_atoi (htwo 6) _).2 hd⟩
    · rintro ⟨-, a, ha, h⟩
      exact ⟨a, ha, (reads_iff_atoi hfour _).1 h.year, (reads_iff_atoi (htwo 4) _).1 h.month,
        (reads_iff_atoi (htwo 6) _).1 h.day⟩
  · rw [checkDate, checkFields, if_pos hlen]
    exact ⟨fun h ↦ absurd h (by decide), fun h ↦ absurd h.1 hlen⟩

/-- Every date is accepted. -/
theorem checkDate_of_isDateText {sDate : List UInt8} (h : IsDateText (cstr sDate)) :
    checkDate sDate = 0 := by
  obtain ⟨a, ha, hs⟩ := h
  have hlen : (cstr sDate).length = 8 := by rw [hs, dateText_length ha]
  have hdigits : ∀ c ∈ cstr sDate, isDigit c = true := fun c hc ↦ by
    rw [hs] at hc
    exact isDigit_of_mem_dateText hc
  exact (checkDate_eq_zero_iff sDate).2 ⟨hlen, a, ha, (fieldsRead_iff hlen hdigits ha).2 hs⟩

/-- **`CheckDate` and `CheckStrDate` accept exactly the dates, unless the text is eight characters,
not all of them digits, whose fields begin with the numbers of a day.** -/
theorem checkDate_exact_iff (sDate : List UInt8) :
    ((checkDate sDate = 0 ↔ IsDateText (cstr sDate)) ∧ checkStrDate sDate = checkDate sDate) ↔
      ((cstr sDate).length = 8 → (∀ c ∈ cstr sDate, isDigit c = true) ∨
        ∀ a : Date, a.year ≤ 9999 → ¬FieldsRead (cstr sDate) a) := by
  constructor
  · rintro ⟨hexact, -⟩ hlen
    by_cases hread : ∃ a : Date, a.year ≤ 9999 ∧ FieldsRead (cstr sDate) a
    · obtain ⟨a, -, hs⟩ := hexact.1 ((checkDate_eq_zero_iff sDate).2 ⟨hlen, hread⟩)
      refine Or.inl fun c hc ↦ ?_
      rw [hs] at hc
      exact isDigit_of_mem_dateText hc
    · exact Or.inr fun a ha h ↦ hread ⟨a, ha, h⟩
  · intro hcond
    refine ⟨⟨fun hzero ↦ ?_, checkDate_of_isDateText⟩, rfl⟩
    obtain ⟨hlen, a, ha, h⟩ := (checkDate_eq_zero_iff sDate).1 hzero
    rcases hcond hlen with hdigits | hnone
    · exact ⟨a, ha, (fieldsRead_iff hlen hdigits ha).1 h⟩
    · exact absurd h (hnone a ha)

/-- Month and day with a blank for the zero. -/
theorem checkDate_not_exact_blanks :
    ¬((checkDate (text "2020 1 1") = 0 ↔ IsDateText (cstr (text "2020 1 1"))) ∧
      checkStrDate (text "2020 1 1") = checkDate (text "2020 1 1")) := by
  rintro ⟨hexact, -⟩
  obtain ⟨a, -, hs⟩ := hexact.1 (by decide)
  have hblank : (32 : UInt8) ∈ dateText a := by
    rw [← hs]
    decide
  exact absurd (isDigit_of_mem_dateText hblank) (by decide)

end Sunda
