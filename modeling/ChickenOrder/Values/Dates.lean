import Mathlib.Data.Int.Basic
import Mathlib.Tactic.Common
import ChickenOrder.Values.Numerals

/-!
# Dates

The calendar day of a time in milliseconds since 1970-01-01 UTC, and how `toISOString()` prints
it.  `civilDate` is the proleptic Gregorian calendar with years that end in February, in eras of
400 years from 0000-03-01 on; `dayNumber` counts the days back.

Both are total, also for times before 1970 and for years of any size.  `civilDate_spec` is the
round trip, from which it follows that different days have different dates; texts of dates are
then compared by their digits.
-/

namespace ChickenOrder

/-! ## The calendar -/

/-- The days of an era before one of its years.  An era has four hundred years, after which the
calendar repeats. -/
def daysBefore (yearOfEra : ℕ) : ℕ := 365 * yearOfEra + yearOfEra / 4 - yearOfEra / 100

/-- The year of an era that a day of it is in. -/
def yearOfDay (dayOfEra : ℕ) : ℕ :=
  (dayOfEra - dayOfEra / 1460 + dayOfEra / 36524 - dayOfEra / 146096) / 365

/-- The date of a day counted from the first of March. -/
def dateInYear (year : ℤ) (dayOfYear : ℕ) : ℤ × ℕ × ℕ :=
  let month := (5 * dayOfYear + 2) / 153
  let day := dayOfYear - (153 * month + 2) / 5 + 1
  if month < 10 then (year, month + 3, day) else (year + 1, month - 9, day)

/-- Year, month and day of a day counted from 1970-01-01, in the Gregorian calendar.  Years are
counted from March inside, so that the leap day comes last. -/
def civilDate (day : ℤ) : ℤ × ℕ × ℕ :=
  let z := day + 719468
  let dayOfEra := (z % 146097).toNat
  dateInYear (yearOfDay dayOfEra + z / 146097 * 400) (dayOfEra - daysBefore (yearOfDay dayOfEra))

/-- The day of a date. -/
def dayNumber : ℤ × ℕ × ℕ → ℤ
  | (year, month, day) =>
      let y := if month ≤ 2 then year - 1 else year
      let month' := if 2 < month then month - 3 else month + 9
      y / 400 * 146097 + daysBefore (y % 400).toNat + ((153 * month' + 2) / 5 + day - 1 : ℕ) - 719468

example : (civilDate 19782, civilDate (-1)) = ((2024, 2, 29), (1969, 12, 31)) := by decide

section Era

/-- A day of an era in its century, its four years and its year. -/
theorem dayOfEra_split {dayOfEra : ℕ} (h : dayOfEra < 146097) :
    ∃ c q s, c ≤ 3 ∧ q ≤ 24 ∧ s ≤ 1460 ∧ dayOfEra = 36524 * c + 1461 * q + s ∧
      dayOfEra / 36524 - dayOfEra / 146096 = c := by
  refine ⟨min (dayOfEra / 36524) 3, (dayOfEra - 36524 * min (dayOfEra / 36524) 3) / 1461,
    (dayOfEra - 36524 * min (dayOfEra / 36524) 3) % 1461, ?_, ?_, ?_, ?_, ?_⟩ <;> omega

/-- The leap day is the last of its four years. -/
theorem yearOfDay_eq {c q s dayOfEra : ℕ} (hc : c ≤ 3) (hq : q ≤ 24) (hs : s ≤ 1460)
    (hday : dayOfEra = 36524 * c + 1461 * q + s)
    (hcentury : dayOfEra / 36524 - dayOfEra / 146096 = c) :
    yearOfDay dayOfEra = 100 * c + 4 * q + min (s / 365) 3 := by
  have hsub : dayOfEra - dayOfEra / 1460 + dayOfEra / 36524 - dayOfEra / 146096 =
      dayOfEra - dayOfEra / 1460 + c := by omega
  have hdiv : dayOfEra / 1460 = 25 * c + q + (24 * c + q + s) / 1460 := by omega
  have hlast : (24 * c + q + s) / 1460 ≤ 1 := by omega
  unfold yearOfDay
  rw [hsub, hdiv, hday]
  clear hsub hdiv hday hcentury
  omega

/-- The days before a year of an era, by its century, its group of four years and its year in that.
-/
theorem daysBefore_eq {c q u : ℕ} (hc : c ≤ 3) (hq : q ≤ 24) (hu : u ≤ 3) :
    daysBefore (100 * c + 4 * q + u) = 36524 * c + 1461 * q + 365 * u := by
  have hleap : (100 * c + 4 * q + u) / 4 = 25 * c + q := by omega
  have hcentury : (100 * c + 4 * q + u) / 100 = c := by omega
  unfold daysBefore
  rw [hleap, hcentury]
  omega

/-- A day is one of the at most 366 days of its year. -/
theorem yearOfDay_spec {dayOfEra : ℕ} (h : dayOfEra < 146097) :
    yearOfDay dayOfEra < 400 ∧ daysBefore (yearOfDay dayOfEra) ≤ dayOfEra ∧
      dayOfEra - daysBefore (yearOfDay dayOfEra) ≤ 365 := by
  obtain ⟨c, q, s, hc, hq, hs, hday, hcentury⟩ := dayOfEra_split h
  have hu : min (s / 365) 3 ≤ 3 := Nat.min_le_right _ _
  have hlow : 365 * min (s / 365) 3 ≤ s := by omega
  have hhigh : s ≤ 365 * min (s / 365) 3 + 365 := by omega
  rw [yearOfDay_eq hc hq hs hday hcentury, daysBefore_eq hc hq hu, hday]
  clear hday hcentury
  generalize min (s / 365) 3 = u at hu hlow hhigh
  omega

end Era

/-- Month and day fit two digits, and the day is found again. -/
theorem dateInYear_spec (era : ℤ) {yearOfEra dayOfYear : ℕ} (hyear : yearOfEra < 400)
    (hday : dayOfYear ≤ 365) :
    (dateInYear (yearOfEra + era * 400) dayOfYear).2.1 < 100 ∧
      (dateInYear (yearOfEra + era * 400) dayOfYear).2.2 < 100 ∧
      dayNumber (dateInYear (yearOfEra + era * 400) dayOfYear) =
        era * 146097 + daysBefore yearOfEra + dayOfYear - 719468 := by
  have hera : ((yearOfEra : ℤ) + era * 400) / 400 = era := by omega
  have hrest : (((yearOfEra : ℤ) + era * 400) % 400).toNat = yearOfEra := by omega
  have hmonth : (5 * dayOfYear + 2) / 153 < 12 := by omega
  have hfirst : (153 * ((5 * dayOfYear + 2) / 153) + 2) / 5 ≤ dayOfYear := by omega
  have hdate : dayOfYear - (153 * ((5 * dayOfYear + 2) / 153) + 2) / 5 + 1 < 100 := by omega
  unfold dateInYear
  generalize (5 * dayOfYear + 2) / 153 = month at hmonth hfirst hdate
  have hback : (153 * month + 2) / 5 + (dayOfYear - (153 * month + 2) / 5 + 1) - 1 = dayOfYear := by
    omega
  simp only
  split
  · have hdigits : month + 3 < 100 := by omega
    refine ⟨hdigits, hdate, ?_⟩
    have hspring : ¬ month + 3 ≤ 2 := by omega
    have hafter : 2 < month + 3 := by omega
    simp only [dayNumber, if_neg hspring, if_pos hafter, hera, hrest, Nat.add_sub_cancel, hback]
  · have hdigits : month - 9 < 100 := by omega
    refine ⟨hdigits, hdate, ?_⟩
    have hwinter : month - 9 ≤ 2 := by omega
    have hbefore : ¬ 2 < month - 9 := by omega
    have hnine : month - 9 + 9 = month := by omega
    simp only [dayNumber, if_pos hwinter, if_neg hbefore, add_sub_cancel_right, hera, hrest, hnine,
      hback]

/-- **The date of a day is that of no other**, as the day is found again from it. -/
theorem civilDate_spec (day : ℤ) :
    (civilDate day).2.1 < 100 ∧ (civilDate day).2.2 < 100 ∧ dayNumber (civilDate day) = day := by
  obtain ⟨hyear, hstart, hlength⟩ :=
    yearOfDay_spec (by omega : ((day + 719468) % 146097).toNat < 146097)
  obtain ⟨hmonth, hdate, hnumber⟩ := dateInYear_spec ((day + 719468) / 146097) hyear hlength
  refine ⟨hmonth, hdate, ?_⟩
  rw [civilDate, hnumber]
  omega

/-! ## How it is printed -/

/-- `n` in decimal, with leading zeros up to `width` digits. -/
def padZeros (width n : ℕ) : String := String.ofList ((Nat.toDigits 10 n).leftpad width '0')

/-- `toISOString()` up to the time of day; years of more than four digits have a sign and six. -/
def isoDate (t : ℤ) : String :=
  let (year, month, day) := civilDate (t / 86400000)
  (if 0 ≤ year ∧ year ≤ 9999 then padZeros 4 year.toNat
    else (if year < 0 then "-" else "+") ++ padZeros 6 year.natAbs) ++ "-" ++
    padZeros 2 month ++ "-" ++ padZeros 2 day

/-- The first ten characters of `toISOString()`, without the hyphens. -/
def compactDate (t : ℤ) : String :=
  String.ofList (((isoDate t ++ "T").toList.take 10).filter fun c => c ≠ '-')

example : compactDate 1709164800000 = "20240229" := by decide +kernel

section Printed

/-- A number of at most `width` digits is printed with exactly as many. -/
theorem padZeros_spec {width n : ℕ} (hwidth : 0 < width) (h : n < 10 ^ width) :
    (padZeros width n).toList.length = width ∧ (∀ c ∈ (padZeros width n).toList, c.isDigit) ∧
      Nat.ofDigitChars 10 (padZeros width n).toList 0 = n := by
  have hlength := (Nat.length_toDigits_le_iff (by omega) hwidth).mpr h
  unfold padZeros List.leftpad
  rw [String.toList_ofList]
  refine ⟨?_, ?_, ?_⟩
  · simp [Nat.sub_add_cancel hlength]
  · intro c hc
    rcases List.mem_append.mp hc with hc | hc
    · rw [List.eq_of_mem_replicate hc]
      rfl
    · exact Nat.isDigit_of_mem_toDigits (by omega) (by omega) hc
  · rw [Nat.ofDigitChars_append, Nat.ofDigitChars_replicate_zero, Nat.mul_zero,
      Nat.ofDigitChars_ten_toDigits]

/-- Digits are no hyphens. -/
theorem filter_hyphen_of_digits {cs : List Char} (h : ∀ c ∈ cs, c.isDigit) :
    cs.filter (fun c => c ≠ '-') = cs := by
  refine List.filter_eq_self.mpr fun c hc => ?_
  have hne : c ≠ '-' := by
    rintro rfl
    cases h _ hc
  simpa using hne

/-- Eight digits for a date of a four-digit year. -/
theorem compactDate_toList {t : ℤ} (hyear : 0 ≤ (civilDate (t / 86400000)).1 ∧
    (civilDate (t / 86400000)).1 ≤ 9999) :
    (compactDate t).toList = (padZeros 4 (civilDate (t / 86400000)).1.toNat).toList ++
      ((padZeros 2 (civilDate (t / 86400000)).2.1).toList ++
        (padZeros 2 (civilDate (t / 86400000)).2.2).toList) := by
  obtain ⟨hmonth, hday, -⟩ := civilDate_spec (t / 86400000)
  unfold compactDate isoDate
  generalize civilDate (t / 86400000) = date at *
  obtain ⟨year, month, day⟩ := date
  obtain ⟨hyears, hyearDigits, -⟩ := padZeros_spec (by omega)
    (show year.toNat < 10 ^ 4 by simp only at hyear; omega)
  obtain ⟨hmonths, hmonthDigits, -⟩ := padZeros_spec (by omega) (show month < 10 ^ 2 from hmonth)
  obtain ⟨hdays, hdayDigits, -⟩ := padZeros_spec (by omega) (show day < 10 ^ 2 from hday)
  simp only [if_pos hyear, String.toList_append, String.toList_ofList]
  generalize (padZeros 4 year.toNat).toList = years at *
  generalize (padZeros 2 month).toList = months at *
  generalize (padZeros 2 day).toList = days at *
  have hlength : (years ++ "-".toList ++ months ++ "-".toList ++ days).length = 10 := by
    simp [hyears, hmonths, hdays]
  rw [List.take_left' hlength]
  simp only [List.filter_append, filter_hyphen_of_digits hyearDigits,
    filter_hyphen_of_digits hmonthDigits, filter_hyphen_of_digits hdayDigits]
  simp

/-- Eight digits, read as a date. -/
def readDate (cs : List Char) : Option (ℤ × ℕ × ℕ) :=
  if cs.length = 8 ∧ cs.all Char.isDigit then
    some (Nat.ofDigitChars 10 (cs.take 4) 0, Nat.ofDigitChars 10 ((cs.drop 4).take 2) 0,
      Nat.ofDigitChars 10 (cs.drop 6) 0)
  else none

/-- **The printed date is read back.** -/
theorem readDate_compactDate {t : ℤ} (hyear : 0 ≤ (civilDate (t / 86400000)).1 ∧
    (civilDate (t / 86400000)).1 ≤ 9999) :
    readDate (compactDate t).toList = some (civilDate (t / 86400000)) := by
  obtain ⟨hmonth, hday, -⟩ := civilDate_spec (t / 86400000)
  rw [compactDate_toList hyear]
  generalize civilDate (t / 86400000) = date at *
  obtain ⟨year, month, day⟩ := date
  obtain ⟨hyears, hyearDigits, hyearValue⟩ := padZeros_spec (by omega)
    (show year.toNat < 10 ^ 4 by simp only at hyear; omega)
  obtain ⟨hmonths, hmonthDigits, hmonthValue⟩ :=
    padZeros_spec (by omega) (show month < 10 ^ 2 from hmonth)
  obtain ⟨hdays, hdayDigits, hdayValue⟩ := padZeros_spec (by omega) (show day < 10 ^ 2 from hday)
  generalize (padZeros 4 year.toNat).toList = years at *
  generalize (padZeros 2 month).toList = months at *
  generalize (padZeros 2 day).toList = days at *
  have hdigits : (years ++ (months ++ days)).all Char.isDigit = true := by
    simp only [List.all_append, Bool.and_eq_true, List.all_eq_true]
    exact ⟨hyearDigits, hmonthDigits, hdayDigits⟩
  have hlength : (years ++ (months ++ days)).length = 8 := by simp [hyears, hmonths, hdays]
  have hsix : (years ++ months).length = 6 := by simp [hyears, hmonths]
  unfold readDate
  rw [if_pos ⟨hlength, hdigits⟩, List.take_left' hyears, List.drop_left' hyears,
    List.take_left' hmonths, ← List.append_assoc, List.drop_left' hsix, hyearValue, hmonthValue,
    hdayValue, Int.toNat_of_nonneg hyear.1]

end Printed

end ChickenOrder
