import StateWeaver.Lib.NumberText

/-!
# Dates and times of day

The proleptic Gregorian calendar from the year 1 to the year 9999, and how `isoformat` writes an instant
in UTC. Instants are microseconds since the start of the year 1; no two of them are written alike.
-/

namespace Py

/-! ## The calendar -/

structure Date where
  year : ℕ
  month : ℕ
  day : ℕ
  deriving DecidableEq

/-- The days of a common year before a month, counted from 1. -/
def daysBeforeMonth (month : ℕ) : ℕ := [0, 0, 31, 59, 90, 120, 151, 181, 212, 243, 273, 304, 334].getD month 0

/-- The days before a year. -/
def daysBeforeYear (year : ℕ) : ℕ :=
  (year - 1) * 365 + (year - 1) / 4 - (year - 1) / 100 + (year - 1) / 400

/-- The days of a year before a month. -/
def preceding (leap : Bool) (month : ℕ) : ℕ :=
  daysBeforeMonth month + if 2 < month && leap then 1 else 0

/-- The month and the day with a number of days of the year before them. The estimate of the month is
at most one too large. -/
def monthAndDay (leap : Bool) (n : ℕ) : ℕ × ℕ :=
  let month := (n + 50) / 32
  if n < preceding leap month then (month - 1, n - preceding leap (month - 1) + 1)
  else (month, n - preceding leap month + 1)

/-- The year, and how many of its days have passed, `n` days after the start of the year 1. The last day
of a cycle of 4 or 400 years would start a year too many. -/
def yearAndDay (n : ℕ) : ℕ × ℕ :=
  let year := n / 146097 * 400 + n % 146097 / 36524 * 100 + n % 146097 % 36524 / 1461 * 4 +
    n % 146097 % 36524 % 1461 / 365 + 1
  if n % 146097 % 36524 % 1461 / 365 = 4 ∨ n % 146097 / 36524 = 4 then (year - 1, 365)
  else (year, n % 146097 % 36524 % 1461 % 365)

def isLeapYear (year : ℕ) : Bool := year % 4 = 0 && (year % 100 ≠ 0 || year % 400 = 0)

/-- The date a number of days after the start of the year 1. -/
def dateOfDays (n : ℕ) : Date :=
  let monthDay := monthAndDay (isLeapYear (yearAndDay n).1) (yearAndDay n).2
  ⟨(yearAndDay n).1, monthDay.1, monthDay.2⟩

theorem daysBeforeYear_eq {a b c d : ℕ} (hb : b ≤ 3) (hc : c ≤ 24) (hd : d ≤ 3) :
    daysBeforeYear (400 * a + 100 * b + 4 * c + d + 1) =
      146097 * a + 36524 * b + 1461 * c + 365 * d := by
  have hfour : (400 * a + 100 * b + 4 * c + d) / 4 = 100 * a + 25 * b + c := by omega
  have hcentury : (400 * a + 100 * b + 4 * c + d) / 100 = 4 * a + b := by omega
  have hcycle : (400 * a + 100 * b + 4 * c + d) / 400 = a := by omega
  rw [daysBeforeYear, Nat.add_sub_cancel, hfour, hcentury, hcycle]
  omega

/-- The days before the year and those of the year make up all days. -/
theorem daysBeforeYear_add (n : ℕ) :
    daysBeforeYear (yearAndDay n).1 + (yearAndDay n).2 = n ∧ (yearAndDay n).2 < 366 := by
  have hcycle := Nat.div_add_mod n 146097
  have hcentury := Nat.div_add_mod (n % 146097) 36524
  have hfour := Nat.div_add_mod (n % 146097 % 36524) 1461
  have hone := Nat.div_add_mod (n % 146097 % 36524 % 1461) 365
  have hcycleLt := Nat.mod_lt n (by decide : 0 < 146097)
  have hcenturyLt := Nat.mod_lt (n % 146097) (by decide : 0 < 36524)
  have hfourLt := Nat.mod_lt (n % 146097 % 36524) (by decide : 0 < 1461)
  have honeLt := Nat.mod_lt (n % 146097 % 36524 % 1461) (by decide : 0 < 365)
  rw [yearAndDay]
  revert hcycle hcentury hfour hone hcycleLt hcenturyLt hfourLt honeLt
  generalize n / 146097 = a
  generalize n % 146097 = r
  generalize r / 36524 = b
  generalize r % 36524 = s
  generalize s / 1461 = c
  generalize s % 1461 = t
  generalize t / 365 = d
  generalize t % 365 = u
  intro hcycle hcentury hfour hone hcycleLt hcenturyLt hfourLt honeLt
  split
  · next hlast =>
      simp only
      rcases hlast with rfl | rfl
      · have hyear : a * 400 + b * 100 + c * 4 + 4 + 1 - 1 = 400 * a + 100 * b + 4 * c + 3 + 1 := by
          omega
        rw [hyear, daysBeforeYear_eq (by omega) (by omega) (by omega)]
        omega
      · have hyear : a * 400 + 4 * 100 + c * 4 + d + 1 - 1 = 400 * a + 100 * 3 + 4 * 24 + 3 + 1 := by
          omega
        have hdays := daysBeforeYear_eq (a := a) (b := 3) (c := 24) (d := 3) (by decide) (by decide)
          (by decide)
        rw [hyear, hdays]
        omega
  · next hlast =>
      simp only
      obtain ⟨hd, hb⟩ := not_or.mp hlast
      have hyear : a * 400 + b * 100 + c * 4 + d + 1 = 400 * a + 100 * b + 4 * c + d + 1 := by omega
      rw [hyear, daysBeforeYear_eq (by omega) (by omega) (by omega)]
      omega

/-- The days before the month and those of the month make up all days of the year. -/
theorem preceding_add {n : ℕ} (leap : Bool) (hn : n < 366) :
    preceding leap (monthAndDay leap n).1 + (monthAndDay leap n).2 = n + 1 := by
  have hall : ∀ leap : Bool, ∀ n ∈ List.range 366,
      preceding leap (monthAndDay leap n).1 + (monthAndDay leap n).2 = n + 1 := by decide +kernel
  exact hall leap n (List.mem_range.mpr hn)

theorem monthAndDay_inj {leap : Bool} {m n : ℕ} (hm : m < 366) (hn : n < 366)
    (h : monthAndDay leap m = monthAndDay leap n) : m = n := by
  have hadd := preceding_add leap hm
  rw [h, preceding_add leap hn] at hadd
  exact (Nat.succ_injective hadd).symm

theorem dateOfDays_inj {m n : ℕ} (h : dateOfDays m = dateOfDays n) : m = n := by
  rw [dateOfDays, dateOfDays] at h
  obtain ⟨hyear, hmonth, hday⟩ := Date.mk.inj h
  obtain ⟨hm, hmlt⟩ := daysBeforeYear_add m
  obtain ⟨hn, hnlt⟩ := daysBeforeYear_add n
  simp only [hyear] at hmonth hday hm
  have heq := monthAndDay_inj hmlt hnlt (Prod.ext hmonth hday)
  omega

example : dateOfDays 719162 = ⟨1970, 1, 1⟩ ∧ dateOfDays 730178 = ⟨2000, 2, 29⟩ ∧
    dateOfDays 3652058 = ⟨9999, 12, 31⟩ := by
  decide

/-! ## Texts -/

/-- A number with zeros before it, up to a width. -/
def padded (width n : ℕ) : List Char :=
  List.replicate (width - (Nat.toDigits 10 n).length) '0' ++ Nat.toDigits 10 n

theorem padded_inj {width m n : ℕ} (h : padded width m = padded width n) : m = n := by
  have hvalue : ∀ n, digitsValue (padded width n) = n := by
    intro n
    rw [padded, digitsValue_zeros_append, digitsValue, Nat.ofDigitChars_ten_toDigits]
  rw [← hvalue m, h, hvalue]

theorem length_padded {width n : ℕ} (hwidth : 0 < width) (hn : n < 10 ^ width) :
    (padded width n).length = width := by
  have hdigits := (Nat.length_toDigits_le_iff (by decide) hwidth).mpr hn
  rw [padded, List.length_append, List.length_replicate]
  omega

/-- How many microseconds the years from 1 to 9999 have. -/
def endOfTime : ℕ := 3652059 * 86400000000

/-- `isoformat()` of an instant in UTC, with `Z` for the offset. -/
def isoText (microseconds : ℕ) : List Char :=
  let date := dateOfDays (microseconds / 86400000000)
  let time := microseconds % 86400000000
  let fraction := time % 1000000
  padded 4 date.year ++ '-' :: padded 2 date.month ++ '-' :: padded 2 date.day ++ 'T' ::
    padded 2 (time / 3600000000) ++ ':' :: padded 2 (time / 60000000 % 60) ++ ':' ::
    padded 2 (time / 1000000 % 60) ++ (if fraction = 0 then [] else '.' :: padded 6 fraction) ++ ['Z']

example : isoText (719162 * 86400000000 + 1500000) = "1970-01-01T00:00:01.500000Z".toList := by
  decide +kernel

theorem year_lt {n : ℕ} (h : n < 3652059) : (dateOfDays n).year < 10000 := by
  obtain ⟨hdays, -⟩ := daysBeforeYear_add n
  by_contra hyear
  have hyear : 10000 ≤ (yearAndDay n).1 := not_lt.mp hyear
  rw [daysBeforeYear] at hdays
  omega

theorem month_day_lt (n : ℕ) : (dateOfDays n).month < 100 ∧ (dateOfDays n).day < 100 := by
  have hall : ∀ leap : Bool, ∀ d ∈ List.range 366,
      (monthAndDay leap d).1 < 100 ∧ (monthAndDay leap d).2 < 100 := by decide +kernel
  exact hall _ _ (List.mem_range.mpr (daysBeforeYear_add n).2)

/-- Fields of one width, followed by the same, are equal, and so is what follows. -/
theorem eq_of_padded_append {width m n : ℕ} {rest rest' : List Char} (hwidth : 0 < width)
    (hm : m < 10 ^ width) (hn : n < 10 ^ width)
    (h : padded width m ++ rest = padded width n ++ rest') : m = n ∧ rest = rest' := by
  have hlength : (padded width m).length = (padded width n).length := by
    rw [length_padded hwidth hm, length_padded hwidth hn]
  obtain ⟨hpadded, hrest⟩ := List.append_inj h hlength
  exact ⟨padded_inj hpadded, hrest⟩

theorem eq_of_fraction {m n : ℕ} (hm : m < 1000000) (hn : n < 1000000)
    (h : (if m = 0 then [] else '.' :: padded 6 m) ++ ['Z'] =
      (if n = 0 then [] else '.' :: padded 6 n) ++ ['Z']) : m = n := by
  split_ifs at h with hmzero hnzero hnzero
  · rw [hmzero, hnzero]
  · cases h
  · cases h
  · exact (eq_of_padded_append (by decide) hm hn (List.cons.inj h).2).1

/-- Different instants are written differently. -/
theorem isoText_inj {m n : ℕ} (hm : m < endOfTime) (hn : n < endOfTime) (h : isoText m = isoText n) :
    m = n := by
  rw [endOfTime] at hm hn
  have hyear := year_lt (n := m / 86400000000) (by omega)
  have hyear' := year_lt (n := n / 86400000000) (by omega)
  obtain ⟨hmonth, hday⟩ := month_day_lt (m / 86400000000)
  obtain ⟨hmonth', hday'⟩ := month_day_lt (n / 86400000000)
  have htime := Nat.mod_lt m (by decide : 0 < 86400000000)
  have htime' := Nat.mod_lt n (by decide : 0 < 86400000000)
  simp only [isoText, List.append_assoc, List.cons_append] at h
  obtain ⟨hyears, h⟩ := eq_of_padded_append (by decide) hyear hyear' h
  obtain ⟨hmonths, h⟩ := eq_of_padded_append (by decide) hmonth hmonth' (List.cons.inj h).2
  obtain ⟨hdays, h⟩ := eq_of_padded_append (by decide) hday hday' (List.cons.inj h).2
  obtain ⟨hhours, h⟩ := eq_of_padded_append (by decide) (by omega) (by omega) (List.cons.inj h).2
  obtain ⟨hminutes, h⟩ := eq_of_padded_append (by decide) (by omega) (by omega) (List.cons.inj h).2
  obtain ⟨hseconds, h⟩ := eq_of_padded_append (by decide) (by omega) (by omega) (List.cons.inj h).2
  have hfraction := eq_of_fraction (by omega) (by omega) h
  have hdate : m / 86400000000 = n / 86400000000 :=
    dateOfDays_inj (by rw [Date.mk.injEq]; exact ⟨hyears, hmonths, hdays⟩)
  omega

end Py
