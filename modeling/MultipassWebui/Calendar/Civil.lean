import Mathlib.Tactic.Ring
import Mathlib.Order.Basic

/-!
# Instants and the civil calendar

An instant is an integer number of microseconds since 1970-01-01 00:00 UTC, and its
calendar fields are those of the proleptic Gregorian calendar without leap
seconds.  A day number is turned into a date by cutting the 400-year era into
centuries, four-year blocks and years that begin in March, so that the leap
day is the last day of its block.  The cutting is undone by `daysOfDate`, which
makes dates injective and identifies a calendar minute with one minute of the
instant line.
-/

namespace MultipassWebui.Calendar

/-- A civil date. -/
structure Date where
  year : Int
  month : Int
  day : Int
  deriving DecidableEq, Repr

/-- Days between 0000-03-01 and 1970-01-01. -/
def epochShift : Int := 719468

/-- Days in 400 years. -/
def eraDays : Int := 146097

/-- Position of a day in its era: the year of the era that begins in March,
and the day of that year. -/
def yearOfEra (dayOfEra : Int) : Int × Int :=
  let century := min (dayOfEra / 36524) 3
  let dayOfCentury := dayOfEra - century * 36524
  let block := dayOfCentury / 1461
  let dayOfBlock := dayOfCentury - block * 1461
  let year := min (dayOfBlock / 365) 3
  (century * 100 + block * 4 + year, dayOfBlock - year * 365)

/-- The civil date of a day counted from the epoch. -/
def dateOfDays (days : Int) : Date :=
  let shifted := days + epochShift
  let era := shifted / eraDays
  let (year, dayOfYear) := yearOfEra (shifted % eraDays)
  let month := (5 * dayOfYear + 2) / 153
  { year := era * 400 + year + (if month < 10 then 0 else 1)
    month := if month < 10 then month + 3 else month - 9
    day := dayOfYear - (153 * month + 2) / 5 + 1 }

/-- The day, counted from the epoch, of a civil date. -/
def daysOfDate (date : Date) : Int :=
  let year := if date.month ≤ 2 then date.year - 1 else date.year
  let month := if date.month ≤ 2 then date.month + 9 else date.month - 3
  let dayOfYear := (153 * month + 2) / 5 + date.day - 1
  year / 400 * eraDays +
    (365 * (year % 400) + year % 400 / 4 - year % 400 / 100 + dayOfYear) - epochShift

/-- The pieces a day of the era is cut into, with the bounds of each piece. -/
theorem yearOfEra_cut {dayOfEra : Int} (low : 0 ≤ dayOfEra) (high : dayOfEra < eraDays) :
    ∃ century block year dayOfYear : Int,
      yearOfEra dayOfEra = (century * 100 + block * 4 + year, dayOfYear) ∧
        0 ≤ century ∧ century ≤ 3 ∧ 0 ≤ block ∧ block ≤ 24 ∧ 0 ≤ year ∧ year ≤ 3 ∧
        0 ≤ dayOfYear ∧ dayOfYear ≤ 365 ∧
        dayOfEra = century * 36524 + block * 1461 + year * 365 + dayOfYear := by
  refine ⟨_, _, _, _, rfl, ?_⟩
  simp only [eraDays] at high
  omega

theorem yearOfEra_bounds {dayOfEra : Int} (low : 0 ≤ dayOfEra) (high : dayOfEra < eraDays) :
    0 ≤ (yearOfEra dayOfEra).1 ∧ (yearOfEra dayOfEra).1 < 400 ∧
      0 ≤ (yearOfEra dayOfEra).2 ∧ (yearOfEra dayOfEra).2 < 366 := by
  obtain ⟨century, block, year, dayOfYear, cut, _⟩ := yearOfEra_cut low high
  rw [cut]
  simp only
  omega

/-- The leap days before a year of the era restore the day of the era. -/
theorem yearOfEra_inverse {dayOfEra : Int} (low : 0 ≤ dayOfEra) (high : dayOfEra < eraDays) :
    365 * (yearOfEra dayOfEra).1 + (yearOfEra dayOfEra).1 / 4 -
      (yearOfEra dayOfEra).1 / 100 + (yearOfEra dayOfEra).2 = dayOfEra := by
  obtain ⟨century, block, year, dayOfYear, cut, _⟩ := yearOfEra_cut low high
  rw [cut]
  simp only
  have fours : (century * 100 + block * 4 + year) / 4 = century * 25 + block := by omega
  have hundreds : (century * 100 + block * 4 + year) / 100 = century := by omega
  rw [fours, hundreds]
  omega

/-- `daysOfDate` recovers the day number from its date. -/
theorem daysOfDate_dateOfDays (days : Int) : daysOfDate (dateOfDays days) = days := by
  have low : 0 ≤ (days + epochShift) % eraDays := Int.emod_nonneg _ (by decide)
  have high : (days + epochShift) % eraDays < eraDays := Int.emod_lt_of_pos _ (by decide)
  have split : (days + epochShift) / eraDays * eraDays + (days + epochShift) % eraDays =
      days + epochShift := Int.ediv_mul_add_emod _ _
  have bounds := yearOfEra_bounds low high
  have restored := yearOfEra_inverse low high
  simp only [dateOfDays]
  generalize yearOfEra ((days + epochShift) % eraDays) = position at *
  obtain ⟨year, dayOfYear⟩ := position
  simp only at *
  generalize (days + epochShift) / eraDays = era at *
  have monthBounds : 0 ≤ (5 * dayOfYear + 2) / 153 ∧ (5 * dayOfYear + 2) / 153 ≤ 11 := by
    omega
  generalize (5 * dayOfYear + 2) / 153 = month at *
  have eraEq : (era * 400 + year) / 400 = era := by omega
  have yearEq : (era * 400 + year) % 400 = year := by omega
  simp only [daysOfDate]
  by_cases early : month < 10
  · rw [if_pos early, if_pos early, if_neg (by omega), if_neg (by omega), Int.add_zero,
      Int.add_sub_cancel, eraEq, yearEq]
    omega
  · rw [if_neg early, if_neg early, if_pos (by omega), if_pos (by omega),
      Int.add_sub_cancel, Int.sub_add_cancel, eraEq, yearEq]
    omega

/-- Two days with the same year, month and day of the month are the same day. -/
theorem dateOfDays_injective : Function.Injective dateOfDays :=
  Function.LeftInverse.injective daysOfDate_dateOfDays

/-! ## Fields of an instant -/

/-- Microseconds in a minute, an hour and a day. -/
def usecPerMinute : Int := 60000000
def usecPerHour : Int := 3600000000
def usecPerDay : Int := 86400000000

/-- The date of an instant. -/
def date (t : Int) : Date := dateOfDays (t / usecPerDay)

def year (t : Int) : Int := (date t).year
def month (t : Int) : Int := (date t).month
def day (t : Int) : Int := (date t).day
def hour (t : Int) : Int := t % usecPerDay / usecPerHour
def minute (t : Int) : Int := t % usecPerHour / usecPerMinute

/-- Day of the week, Sunday being 0. -/
def wday (t : Int) : Int := (t / usecPerDay + 4) % 7

/-- The number of the minute an instant lies in. -/
def minuteIndex (t : Int) : Int := t / usecPerMinute

theorem hour_bounds (t : Int) : 0 ≤ hour t ∧ hour t < 24 := by
  simp only [hour, usecPerDay, usecPerHour]
  omega

theorem minute_bounds (t : Int) : 0 ≤ minute t ∧ minute t < 60 := by
  simp only [minute, usecPerHour, usecPerMinute]
  omega

/-- Two instants lie in the same minute of the same day: all five fields agree. -/
def SameMinute (t u : Int) : Prop :=
  year t = year u ∧ month t = month u ∧ day t = day u ∧ hour t = hour u ∧ minute t = minute u

instance (t u : Int) : Decidable (SameMinute t u) :=
  inferInstanceAs (Decidable (_ ∧ _))

theorem date_eq_iff (t u : Int) :
    date t = date u ↔ year t = year u ∧ month t = month u ∧ day t = day u := by
  simp only [year, month, day]
  constructor
  · intro equal
    rw [equal]
    exact ⟨rfl, rfl, rfl⟩
  · rintro ⟨years, months, days⟩
    cases first : date t
    cases second : date u
    simp_all

/-- Day, hour and minute are the digits of the minute number. -/
theorem minuteIndex_eq (t : Int) :
    minuteIndex t = t / usecPerDay * 1440 + hour t * 60 + minute t := by
  simp only [minuteIndex, hour, minute, usecPerDay, usecPerHour, usecPerMinute]
  omega

/-- The calendar minute of an instant is its minute on the instant line. -/
theorem sameMinute_iff (t u : Int) : SameMinute t u ↔ minuteIndex t = minuteIndex u := by
  have dates : date t = date u ↔ t / usecPerDay = u / usecPerDay :=
    ⟨fun equal => dateOfDays_injective equal, fun equal => congrArg dateOfDays equal⟩
  have fields : SameMinute t u ↔ date t = date u ∧ hour t = hour u ∧ minute t = minute u := by
    rw [date_eq_iff]
    simp only [SameMinute, and_assoc]
  rw [fields, dates, minuteIndex_eq, minuteIndex_eq]
  have hours := And.intro (hour_bounds t) (hour_bounds u)
  have minutes := And.intro (minute_bounds t) (minute_bounds u)
  omega

theorem SameMinute.refl (t : Int) : SameMinute t t :=
  ⟨rfl, rfl, rfl, rfl, rfl⟩

theorem SameMinute.symm {t u : Int} (same : SameMinute t u) : SameMinute u t :=
  ⟨same.1.symm, same.2.1.symm, same.2.2.1.symm, same.2.2.2.1.symm, same.2.2.2.2.symm⟩

/-- A calendar minute is an interval: what lies between two of its instants
lies in it. -/
theorem SameMinute.of_between {t u v : Int} (first : t ≤ u) (second : u ≤ v)
    (same : SameMinute t v) : SameMinute u v := by
  rw [sameMinute_iff] at same ⊢
  have lower := Int.ediv_le_ediv (c := usecPerMinute) (by decide) first
  have upper := Int.ediv_le_ediv (c := usecPerMinute) (by decide) second
  simp only [minuteIndex] at *
  omega

/-- The instant of a date and a time of day. -/
def instantOf (date : Date) (hour min sec : Int) : Int :=
  daysOfDate date * usecPerDay + hour * usecPerHour + min * usecPerMinute + sec * 1000000

example : date (instantOf ⟨2024, 2, 29⟩ 9 30 5) = ⟨2024, 2, 29⟩ := by decide

end MultipassWebui.Calendar
