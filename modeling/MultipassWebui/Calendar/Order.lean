import MultipassWebui.Calendar.Civil
import Mathlib.Order.Monotone.Basic

/-!
# The order of dates

A day number and the fields of its date are in the same order.  The successor of a
day is looked up in the cut of its era: it is the next day of the year, or the
first one of the next year, block, century or era.
-/

namespace MultipassWebui.Calendar

/-- A day of the era as it is cut into centuries, blocks and years. -/
structure Cut (dayOfEra century block year dayOfYear : Int) : Prop where
  century_nonneg : 0 ≤ century
  century_le : century ≤ 3
  block_nonneg : 0 ≤ block
  block_le : block ≤ 24
  year_nonneg : 0 ≤ year
  year_le : year ≤ 3
  dayOfYear_nonneg : 0 ≤ dayOfYear
  dayOfYear_le : dayOfYear ≤ 365
  leap : dayOfYear = 365 → year = 3 ∧ (block < 24 ∨ century = 3)
  whole : dayOfEra = century * 36524 + block * 1461 + year * 365 + dayOfYear

theorem exists_cut {dayOfEra : Int} (low : 0 ≤ dayOfEra) (high : dayOfEra < eraDays) :
    ∃ century block year dayOfYear, Cut dayOfEra century block year dayOfYear := by
  obtain ⟨century, inCentury⟩ : ∃ c, c = min (dayOfEra / 36524) 3 := ⟨_, rfl⟩
  obtain ⟨block, inBlock⟩ : ∃ b, b = (dayOfEra - century * 36524) / 1461 := ⟨_, rfl⟩
  obtain ⟨year, inYear⟩ : ∃ y, y = min ((dayOfEra - century * 36524 - block * 1461) / 365) 3 :=
    ⟨_, rfl⟩
  simp only [eraDays] at high
  refine ⟨century, block, year, dayOfEra - century * 36524 - block * 1461 - year * 365, ?_⟩
  constructor <;> omega

theorem Cut.yearOfEra_eq {dayOfEra century block year dayOfYear : Int}
    (cut : Cut dayOfEra century block year dayOfYear) :
    yearOfEra dayOfEra = (century * 100 + block * 4 + year, dayOfYear) := by
  rcases cut with ⟨c0, c3, b0, b24, y0, y3, d0, d365, leap, rfl⟩
  have isCentury : min ((century * 36524 + block * 1461 + year * 365 + dayOfYear) / 36524) 3 =
      century := by omega
  have isBlock : (century * 36524 + block * 1461 + year * 365 + dayOfYear -
      century * 36524) / 1461 = block := by omega
  have isYear : min ((century * 36524 + block * 1461 + year * 365 + dayOfYear - century * 36524 -
      block * 1461) / 365) 3 = year := by omega
  simp only [yearOfEra, isCentury, isBlock, isYear, Prod.mk.injEq, true_and]
  omega

/-- The next day is the next of the year or the first of the next year. -/
theorem yearOfEra_succ {dayOfEra : Int} (low : 0 ≤ dayOfEra) (high : dayOfEra + 1 < eraDays) :
    yearOfEra (dayOfEra + 1) = ((yearOfEra dayOfEra).1, (yearOfEra dayOfEra).2 + 1) ∨
      yearOfEra (dayOfEra + 1) = ((yearOfEra dayOfEra).1 + 1, 0) ∧
        364 ≤ (yearOfEra dayOfEra).2 := by
  have inEra := lt_trans (lt_add_one dayOfEra) high
  rcases exists_cut low inEra with ⟨century, block, year, dayOfYear, cut⟩
  have here := cut.yearOfEra_eq
  rcases cut with ⟨c0, c3, b0, b24, y0, y3, d0, d365, leap, whole⟩
  simp only [eraDays] at high
  by_cases inYear : dayOfYear < 364 ∨ dayOfYear = 364 ∧ year = 3 ∧ (block < 24 ∨ century = 3)
  · have next : Cut (dayOfEra + 1) century block year (dayOfYear + 1) := by
      constructor <;> omega
    left
    rw [next.yearOfEra_eq, here]
  right
  by_cases inBlock : year < 3
  · have next : Cut (dayOfEra + 1) century block (year + 1) 0 := by
      constructor <;> omega
    rw [next.yearOfEra_eq, here, Prod.mk.injEq]
    omega
  by_cases inCentury : block < 24
  · have next : Cut (dayOfEra + 1) century (block + 1) 0 0 := by
      constructor <;> omega
    rw [next.yearOfEra_eq, here, Prod.mk.injEq]
    omega
  · have next : Cut (dayOfEra + 1) (century + 1) 0 0 0 := by
      constructor <;> omega
    rw [next.yearOfEra_eq, here, Prod.mk.injEq]
    omega

/-- The fields of a date as one number. -/
def dateNumber (date : Date) : Int := date.year * 512 + date.month * 32 + date.day

/-- The date at a position of an era. -/
def dateAt (era year dayOfYear : Int) : Date :=
  let month := (5 * dayOfYear + 2) / 153
  { year := era * 400 + year + (if month < 10 then 0 else 1)
    month := if month < 10 then month + 3 else month - 9
    day := dayOfYear - (153 * month + 2) / 5 + 1 }

theorem dateOfDays_eq {days era dayOfEra : Int} (low : 0 ≤ dayOfEra) (high : dayOfEra < eraDays)
    (split : days + epochShift = era * eraDays + dayOfEra) :
    dateOfDays days = dateAt era (yearOfEra dayOfEra).1 (yearOfEra dayOfEra).2 := by
  have isEra : (days + epochShift) / eraDays = era := by
    simp only [eraDays] at *
    omega
  have isDay : (days + epochShift) % eraDays = dayOfEra := by
    simp only [eraDays] at *
    omega
  simp only [dateOfDays, isEra, isDay]
  rfl

theorem dateNumber_dateAt_succ (era year dayOfYear : Int) :
    dateNumber (dateAt era year dayOfYear) < dateNumber (dateAt era year (dayOfYear + 1)) := by
  simp only [dateNumber, dateAt]
  split
  · split
    · omega
    · omega
  · split
    · omega
    · omega

/-- The last day of a year that begins in March is the last one of February. -/
theorem dateNumber_dateAt_next {era year nextEra next dayOfYear : Int} (late : 364 ≤ dayOfYear)
    (high : dayOfYear < 366) (follows : nextEra * 400 + next = era * 400 + year + 1) :
    dateNumber (dateAt era year dayOfYear) < dateNumber (dateAt nextEra next 0) := by
  have isMonth : (5 * dayOfYear + 2) / 153 = 11 := by omega
  simp only [dateNumber, dateAt, isMonth]
  norm_num
  omega

/-- Every day is one of an era. -/
theorem exists_era (days : Int) : ∃ era dayOfEra, 0 ≤ dayOfEra ∧ dayOfEra < eraDays ∧
    days + epochShift = era * eraDays + dayOfEra :=
  ⟨(days + epochShift) / eraDays, (days + epochShift) % eraDays, Int.emod_nonneg _ (by decide),
    Int.emod_lt_of_pos _ (by decide), (Int.ediv_mul_add_emod _ _).symm⟩

/-- The last day of an era is the last one of its last year. -/
theorem yearOfEra_last : yearOfEra (eraDays - 1) = (399, 365) := rfl

theorem dateNumber_lt_succ (days : Int) :
    dateNumber (dateOfDays days) < dateNumber (dateOfDays (days + 1)) := by
  rcases exists_era days with ⟨era, dayOfEra, low, high, split⟩
  have bounds := yearOfEra_bounds low high
  rw [dateOfDays_eq low high split]
  by_cases inEra : dayOfEra + 1 < eraDays
  · have next : days + 1 + epochShift = era * eraDays + (dayOfEra + 1) := by
      rw [add_right_comm, split, add_assoc]
    rw [dateOfDays_eq (Int.add_nonneg low Int.one_nonneg) inEra next]
    rcases yearOfEra_succ low inEra with same | ⟨later, atEnd⟩
    · rw [same]
      exact dateNumber_dateAt_succ _ _ _
    · rw [later]
      exact dateNumber_dateAt_next atEnd bounds.2.2.2 (add_assoc _ _ _).symm
  · have isLast : dayOfEra = eraDays - 1 := by omega
    have next : days + 1 + epochShift = (era + 1) * eraDays + 0 := by
      rw [add_right_comm, split, isLast]
      ring
    rw [dateOfDays_eq (Int.le_refl 0) (by decide) next, isLast, yearOfEra_last]
    apply dateNumber_dateAt_next
    · decide
    · decide
    · change (era + 1) * 400 + 0 = era * 400 + 399 + 1
      ring

/-- Dates are in the order of their days. -/
theorem dateNumber_lt_iff (first second : Int) :
    dateNumber (dateOfDays first) < dateNumber (dateOfDays second) ↔ first < second := by
  have increases : StrictMono fun days => dateNumber (dateOfDays days) :=
    strictMono_int_of_lt_succ dateNumber_lt_succ
  exact increases.lt_iff_lt

end MultipassWebui.Calendar
