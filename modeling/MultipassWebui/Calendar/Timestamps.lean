import MultipassWebui.Calendar.Layouts
import MultipassWebui.Calendar.Order
import MultipassWebui.Text.Order

/-!
# Timestamps as texts

The text under which a datetime is stored, and the one that is printed for it.
Both begin with the date; what stands between the date and the time of day is a
blank in one and a letter in the other.  Stored texts are in the order of their
instants.  A stored and a printed one are in the order of their dates.
-/

namespace MultipassWebui.Calendar

open MultipassWebui.Text

/-- The microseconds of an instant within its second. -/
def usec (t : Int) : Int := t % 1000000

def dayText (t : Int) : List Char :=
  yearText (year t) ++ '-' :: (twoDigits (month t).toNat ++ '-' :: twoDigits (day t).toNat)

def clockText (t : Int) : List Char :=
  twoDigits (hour t).toNat ++ ':' :: (twoDigits (minute t).toNat ++
    ':' :: twoDigits (second t).toNat)

/-- The fraction of a stored datetime, which is left out if it is zero. -/
def fractionText (t : Int) : List Char :=
  if usec t = 0 then [] else '.' :: padded 6 (usec t).toNat

/-- A datetime as it is stored: `YYYY-MM-DD HH:MM:SS[.ffffff]`. -/
def storedText (t : Int) : String :=
  String.ofList (dayText t ++ ' ' :: (clockText t ++ fractionText t))

/-- A datetime as it is printed: `YYYY-MM-DDTHH:MM:SS.mmmZ`. -/
def printedText (t : Int) : String :=
  String.ofList (dayText t ++ 'T' :: (clockText t ++
    '.' :: (padded 3 (usec t / 1000).toNat ++ ['Z'])))

/-- The instant that is printed, to its precision. -/
def printedInstant (t : Int) : Int := t - t % 1000

/-- The instant lies in a year of four digits. -/
def FourDigitYear (t : Int) : Prop := 0 ≤ year t ∧ year t ≤ 9999

instance (t : Int) : Decidable (FourDigitYear t) := inferInstanceAs (Decidable (_ ∧ _))

/-! ## Numerals -/

theorem length_padded {width value : Nat} (fits : value < 10 ^ width) (positive : 0 < width) :
    (padded width value).length = width := by
  have digits : (Nat.toDigits 10 value).length ≤ width :=
    (Nat.length_toDigits_le_iff (by decide) positive).mpr fits
  rw [padded, List.length_append, List.length_replicate, Nat.sub_add_cancel digits]

theorem isNumeral_padded {width value : Nat} (fits : value < 10 ^ width) (positive : 0 < width) :
    IsNumeral width value (padded width value) where
  length := length_padded fits positive
  digits _ member := padded_isDigit member
  value := ofDigitChars_padded width value

theorem isNumeral_twoDigits {value : Nat} (fits : value < 100) :
    IsNumeral 2 value (twoDigits value) where
  length := rfl
  digits _ member := twoDigits_isDigit fits member
  value := ofDigitChars_twoDigits fits

theorem isNumeral_yearText {t : Int} (fourDigits : FourDigitYear t) :
    IsNumeral 4 (year t).toNat (yearText (year t)) := by
  rcases fourDigits with ⟨low, high⟩
  have magnitude : (year t).natAbs = (year t).toNat := by omega
  rw [yearText, if_neg (Int.not_lt.mpr low), List.nil_append, magnitude]
  apply isNumeral_padded
  · omega
  · decide

theorem isNumeral_month (t : Int) : IsNumeral 2 (month t).toNat (twoDigits (month t).toNat) := by
  have bounds := month_bounds t
  apply isNumeral_twoDigits
  omega

theorem isNumeral_day (t : Int) : IsNumeral 2 (day t).toNat (twoDigits (day t).toNat) := by
  have bounds := day_bounds t
  apply isNumeral_twoDigits
  omega

theorem isNumeral_hour (t : Int) : IsNumeral 2 (hour t).toNat (twoDigits (hour t).toNat) := by
  have bounds := hour_bounds t
  apply isNumeral_twoDigits
  omega

theorem isNumeral_minute (t : Int) :
    IsNumeral 2 (minute t).toNat (twoDigits (minute t).toNat) := by
  have bounds := minute_bounds t
  apply isNumeral_twoDigits
  omega

theorem isNumeral_second (t : Int) :
    IsNumeral 2 (second t).toNat (twoDigits (second t).toNat) := by
  have bounds := second_bounds t
  apply isNumeral_twoDigits
  omega

/-! ## Dates -/

section

variable {t u : Int}

theorem length_dayText (fourDigits : FourDigitYear t) : (dayText t).length = 10 := by
  rw [dayText, List.length_append, (isNumeral_yearText fourDigits).length]
  rfl

/-- Days are compared field by field. -/
theorem day_lt_iff (t u : Int) :
    t / usecPerDay < u / usecPerDay ↔
      year t < year u ∨
        year t = year u ∧ (month t < month u ∨ month t = month u ∧ day t < day u) := by
  have order := dateNumber_lt_iff (t / usecPerDay) (u / usecPerDay)
  have monthT := month_bounds t
  have monthU := month_bounds u
  have dayT := day_bounds t
  have dayU := day_bounds u
  have here : dateNumber (dateOfDays (t / usecPerDay)) = year t * 512 + month t * 32 + day t := rfl
  have there : dateNumber (dateOfDays (u / usecPerDay)) = year u * 512 + month u * 32 + day u := rfl
  rw [here, there] at order
  rw [← order]
  omega

theorem dayText_lt_iff (left : FourDigitYear t) (right : FourDigitYear u) :
    dayText t < dayText u ↔ t / usecPerDay < u / usecPerDay := by
  rw [dayText, dayText, (isNumeral_yearText left).append_lt_append_iff (isNumeral_yearText right),
    List.cons_lt_cons_iff, (isNumeral_month t).append_lt_append_iff (isNumeral_month u),
    List.cons_lt_cons_iff, (isNumeral_day t).lt_iff (isNumeral_day u), day_lt_iff]
  have monthT := month_bounds t
  have monthU := month_bounds u
  have dayT := day_bounds t
  have dayU := day_bounds u
  have yearT := left.1
  have yearU := right.1
  simp only [lt_self_iff_false, true_and, false_or]
  omega

theorem dayText_eq_iff (left : FourDigitYear t) (right : FourDigitYear u) :
    dayText t = dayText u ↔ t / usecPerDay = u / usecPerDay := by
  rw [← not_iff_not, ← Ne, ← Ne, lt_or_lt_iff_ne.symm, lt_or_lt_iff_ne.symm,
    dayText_lt_iff left right, dayText_lt_iff right left]

/-! ## Times of day -/

/-- The fields of a time of day are its digits. -/
theorem clock_lt_iff (t u : Int) :
    t % usecPerDay < u % usecPerDay ↔
      hour t < hour u ∨ hour t = hour u ∧ (minute t < minute u ∨ minute t = minute u ∧
        (second t < second u ∨ second t = second u ∧ usec t < usec u)) := by
  have hours : t % usecPerDay < u % usecPerDay ↔
      hour t < hour u ∨ hour t = hour u ∧ t % usecPerHour < u % usecPerHour := by
    simp only [hour, usecPerDay, usecPerHour]
    omega
  have minutes : t % usecPerHour < u % usecPerHour ↔
      minute t < minute u ∨ minute t = minute u ∧ t % usecPerMinute < u % usecPerMinute := by
    simp only [minute, usecPerHour, usecPerMinute]
    omega
  have seconds : t % usecPerMinute < u % usecPerMinute ↔
      second t < second u ∨ second t = second u ∧ usec t < usec u := by
    simp only [second, usec, usecPerMinute]
    omega
  rw [hours, minutes, seconds]

/-- A fraction that is left out comes before the others. -/
theorem fractionText_lt_iff (t u : Int) : fractionText t < fractionText u ↔ usec t < usec u := by
  have boundT : 0 ≤ usec t ∧ usec t < 1000000 := by
    simp only [usec]
    omega
  have boundU : 0 ≤ usec u ∧ usec u < 1000000 := by
    simp only [usec]
    omega
  rw [fractionText, fractionText]
  split
  · next noneT =>
      split
      · next noneU => simp [noneT, noneU]
      · next someU =>
          simp only [List.nil_lt_cons, noneT, true_iff]
          omega
  · next someT =>
      split
      · next noneU =>
          simp only [List.not_lt_nil, noneU, false_iff]
          omega
      · next someU =>
          have fitsT : (usec t).toNat < 10 ^ 6 := by omega
          have fitsU : (usec u).toNat < 10 ^ 6 := by omega
          rw [List.cons_lt_cons_iff, (isNumeral_padded fitsT (by decide)).lt_iff
            (isNumeral_padded fitsU (by decide))]
          simp only [lt_self_iff_false, true_and, false_or]
          omega

theorem clockText_append_lt_iff (t u : Int) :
    clockText t ++ fractionText t < clockText u ++ fractionText u ↔
      t % usecPerDay < u % usecPerDay := by
  have hourT := hour_bounds t
  have hourU := hour_bounds u
  have minuteT := minute_bounds t
  have minuteU := minute_bounds u
  have secondT := second_bounds t
  have secondU := second_bounds u
  simp only [clockText, List.append_assoc, List.cons_append]
  rw [(isNumeral_hour t).append_lt_append_iff (isNumeral_hour u), List.cons_lt_cons_iff,
    (isNumeral_minute t).append_lt_append_iff (isNumeral_minute u), List.cons_lt_cons_iff,
    (isNumeral_second t).append_lt_append_iff (isNumeral_second u), fractionText_lt_iff,
    clock_lt_iff]
  simp only [lt_self_iff_false, true_and, false_or]
  omega

/-! ## Texts -/

theorem lt_iff_day_clock (t u : Int) :
    t < u ↔ t / usecPerDay < u / usecPerDay ∨
      t / usecPerDay = u / usecPerDay ∧ t % usecPerDay < u % usecPerDay := by
  simp only [usecPerDay]
  omega

/-- Stored texts are in the order of their instants. -/
theorem storedText_lt_iff (left : FourDigitYear t) (right : FourDigitYear u) :
    storedText t < storedText u ↔ t < u := by
  have same : (dayText t).length = (dayText u).length :=
    (length_dayText left).trans (length_dayText right).symm
  rw [String.lt_iff_toList_lt, storedText, storedText, String.toList_ofList, String.toList_ofList,
    append_lt_append_iff same, List.cons_lt_cons_iff, clockText_append_lt_iff,
    dayText_lt_iff left right, dayText_eq_iff left right, lt_iff_day_clock t u]
  simp only [lt_self_iff_false, true_and, false_or]

theorem storedText_le_iff (left : FourDigitYear t) (right : FourDigitYear u) :
    storedText t ≤ storedText u ↔ t ≤ u := by
  rw [← not_lt, ← not_lt, storedText_lt_iff right left]

/-- A blank comes before a letter: what is stored for a date comes before all that
is printed for it. -/
theorem storedText_lt_printedText_iff (left : FourDigitYear t) (right : FourDigitYear u) :
    storedText t < printedText u ↔ t / usecPerDay ≤ u / usecPerDay := by
  have same : (dayText t).length = (dayText u).length :=
    (length_dayText left).trans (length_dayText right).symm
  have blank : ' ' < 'T' := by decide
  rw [String.lt_iff_toList_lt, storedText, printedText, String.toList_ofList, String.toList_ofList,
    append_lt_append_iff same, List.cons_lt_cons_iff, dayText_lt_iff left right,
    dayText_eq_iff left right, le_iff_lt_or_eq]
  simp only [blank, true_or, and_true]

/-- So a stored text is not before a printed one only on a later date. -/
theorem printedText_le_storedText_iff (left : FourDigitYear t) (right : FourDigitYear u) :
    printedText u ≤ storedText t ↔ u / usecPerDay < t / usecPerDay := by
  rw [← not_lt, storedText_lt_printedText_iff left right, not_le]

end

example : storedText (instantOf ⟨2026, 5, 16⟩ 9 3 7) = "2026-05-16 09:03:07" := by decide

example : printedText (instantOf ⟨2026, 5, 16⟩ 9 3 7 + 123456) = "2026-05-16T09:03:07.123Z" := by
  decide

end MultipassWebui.Calendar
