import Mathlib.Data.Finset.Card
import MultipassWebui.Calendar.Periods
import MultipassWebui.Scheduler.Firing

/-!
# The minutes of a week

The validator and the matcher read the time of a schedule independently, and the
days are not validated at all.  With a tick in every minute of seven days, a
schedule matches as often as its days say exactly if both are in range.
-/

namespace MultipassWebui.Scheduler

open MultipassWebui.Calendar
open MultipassWebui.Records
open MultipassWebui.Text

/-- Minutes in a day. -/
def minutesPerDay : Nat := 1440

/-- Minutes in seven days. -/
def minutesPerWeek : Nat := 7 * minutesPerDay

/-- There is a tick in each of the minutes from a first one on. -/
def TicksEveryMinute (first : Int) (tick : Nat → Int) : Prop :=
  ∀ k < minutesPerWeek, minuteIndex (tick k) = first + k

/-- The number of minutes at which `time_matches?` is true. -/
def matchingMinutes (sched : Schedule) (tick : Nat → Int) : Nat :=
  Nat.count (fun k => timeMatches sched (tick k) = true) minutesPerWeek

/-- How often a schedule is meant to match in seven days. -/
def intendedMatches (sched : Schedule) : Nat :=
  match sched.days with
  | none | some [] => 7
  | some days => days.toFinset.card

/-- The text is an hour below 24 and a minute below 60, with two digits each. -/
def TimeOfDay (text : String) : Prop :=
  ∃ hours < 24, ∃ minutes < 60, text.toList = twoDigits hours ++ ':' :: twoDigits minutes

/-- Every listed day is a day of the week. -/
def DaysOfWeek (sched : Schedule) : Prop := ∀ days ∈ sched.days, ∀ day ∈ days, 0 ≤ day ∧ day ≤ 6

/-- The schedule may match on a day of the week. -/
def OnDay (sched : Schedule) (day : Int) : Prop :=
  sched.days = none ∨ sched.days = some [] ∨ ∃ days ∈ sched.days, day ∈ days

instance (sched : Schedule) (day : Int) : Decidable (OnDay sched day) :=
  inferInstanceAs (Decidable (_ ∨ _))

section

variable {sched : Schedule}

/-- The text of an accepted time, with an hour of up to 29. -/
theorem time_shape (sched : Schedule) : ∃ hours < 30, ∃ minutes < 60,
    sched.time.toList = twoDigits hours ++ ':' :: twoDigits minutes := by
  obtain ⟨hourTens, hourOnes, minuteTens, minuteOnes, shape, first, firstLow, second, third,
    thirdLow, fourth⟩ := (matchesClock_iff _).mp sched.matchesClock_time
  have hourBound := (digit_char_eq second).1
  have minuteBound := (digit_char_eq fourth).1
  refine ⟨digitValue hourTens * 10 + digitValue hourOnes, by omega,
    digitValue minuteTens * 10 + digitValue minuteOnes, by omega, ?_⟩
  rw [shape, ← pair_eq_twoDigits first second, ← pair_eq_twoDigits third fourth]
  rfl

/-- A time of day is read as one hour and one minute. -/
theorem time_eq_iff {hours minutes hours' minutes' : Nat} (hoursBound : hours < 100)
    (minutesBound : minutes < 100) (hoursBound' : hours' < 100) (minutesBound' : minutes' < 100) :
    twoDigits hours ++ ':' :: twoDigits minutes = twoDigits hours' ++ ':' :: twoDigits minutes' ↔
      hours = hours' ∧ minutes = minutes' := by
  constructor
  · intro same
    obtain ⟨sameHours, sameRest⟩ := List.append_inj same rfl
    exact ⟨twoDigits_injective hoursBound hoursBound' sameHours,
      twoDigits_injective minutesBound minutesBound' (List.cons.inj sameRest).2⟩
  · rintro ⟨rfl, rfl⟩
    rfl

/-- Matching depends on the minute of the week alone. -/
theorem timeMatches_week_iff {hours minutes : Nat} (hoursBound : hours < 30)
    (minutesBound : minutes < 60)
    (shape : sched.time.toList = twoDigits hours ++ ':' :: twoDigits minutes) (t : Int) (n : Nat)
    (index : minuteIndex t % minutesPerWeek = (n % minutesPerWeek : Nat)) :
    timeMatches sched t = true ↔ n % minutesPerDay = hours * 60 + minutes ∧
      OnDay sched (((n / minutesPerDay : Nat) + 4) % 7) := by
  have hourRange := hour_bounds t
  have minuteRange := minute_bounds t
  have digits := minuteIndex_eq t
  rw [timeMatches_iff, ScheduledAt, shape, time_eq_iff (by omega) (by omega) (by omega) (by omega)]
  simp only [minutesPerWeek, minutesPerDay] at index ⊢
  have weekday : wday t = ((n / 1440 : Nat) + 4 : Int) % 7 := by
    rw [wday]
    omega
  rw [weekday]
  exact and_congr (by omega) Iff.rfl

/-- In seven days an accepted schedule matches once on each day that it may match
on, if its hour is one of the day. -/
theorem matchingMinutes_eq {hours minutes : Nat} (hoursBound : hours < 30)
    (minutesBound : minutes < 60)
    (shape : sched.time.toList = twoDigits hours ++ ':' :: twoDigits minutes) {first : Int}
    {tick : Nat → Int} (ticks : TicksEveryMinute first tick) :
    matchingMinutes sched tick =
      if hours < 24 then Nat.count (fun day => OnDay sched ((day + 4 : Int) % 7)) 7 else 0 := by
  let start := (first % minutesPerWeek).toNat
  let p : Nat → Prop := fun n => n % minutesPerDay = hours * 60 + minutes ∧
    OnDay sched (((n / minutesPerDay : Nat) + 4) % 7)
  have inWeek : ∀ k < minutesPerWeek, timeMatches sched (tick k) = true ↔ p (start + k) := by
    intro k below
    apply timeMatches_week_iff hoursBound minutesBound shape (tick k) (start + k)
    rw [ticks k below]
    simp only [start, minutesPerWeek, minutesPerDay]
    omega
  have periodic : ∀ n, p (n + minutesPerWeek) ↔ p n := by
    intro n
    have sameMinute : (n + minutesPerWeek) % minutesPerDay = n % minutesPerDay := by
      simp only [minutesPerWeek, minutesPerDay]
      omega
    have sameDay : ((((n + minutesPerWeek) / minutesPerDay : Nat) : Int) + 4) % 7 =
        (((n / minutesPerDay : Nat) : Int) + 4) % 7 := by
      simp only [minutesPerWeek, minutesPerDay]
      omega
    simp only [p, sameMinute, sameDay]
  have counted := count_blocks (p := fun day => OnDay sched ((day + 4 : Int) % 7)) minutesPerDay
    (hours * 60 + minutes) 7
  rw [matchingMinutes, count_congr inWeek, count_from_of_periodic periodic]
  refine counted.trans (if_congr ?_ rfl rfl)
  simp only [minutesPerDay]
  omega

/-- The listed days of the week, counted from the day of the first minute. -/
theorem count_onDay {days : List Int} (listed : sched.days = some days) (given : days ≠ []) :
    Nat.count (fun day => OnDay sched ((day + 4 : Int) % 7)) 7 =
      (days.toFinset.filter fun day => 0 ≤ day ∧ day ≤ 6).card := by
  have onDay : ∀ day, OnDay sched day ↔ day ∈ days := by
    intro day
    simp [OnDay, listed, given]
  rw [Nat.count_eq_card_filter_range]
  refine Finset.card_bij' (fun day _ => (day + 4 : Int) % 7) (fun day _ => ((day + 3) % 7).toNat)
    ?_ ?_ ?_ ?_
  · intro day member
    obtain ⟨_, isOn⟩ := Finset.mem_filter.mp member
    exact Finset.mem_filter.mpr ⟨List.mem_toFinset.mpr ((onDay _).mp isOn), by omega⟩
  · intro day member
    obtain ⟨isIn, low, high⟩ := Finset.mem_filter.mp member
    refine Finset.mem_filter.mpr ⟨Finset.mem_range.mpr (by omega), (onDay _).mpr ?_⟩
    have back : ((((day + 3) % 7).toNat : Int) + 4) % 7 = day := by omega
    rw [back]
    exact List.mem_toFinset.mp isIn
  · intro day member
    have below := Finset.mem_range.mp (Finset.mem_filter.mp member).1
    omega
  · intro day member
    obtain ⟨_, low, high⟩ := Finset.mem_filter.mp member
    omega

theorem count_everyDay (everyDay : sched.days = none ∨ sched.days = some []) :
    Nat.count (fun day => OnDay sched ((day + 4 : Int) % 7)) 7 = 7 := by
  refine Nat.count_of_forall fun day _ => ?_
  rcases everyDay with none | empty
  · exact Or.inl none
  · exact Or.inr (Or.inl empty)

theorem timeOfDay_iff {hours minutes : Nat} (hoursBound : hours < 30) (minutesBound : minutes < 60)
    (shape : sched.time.toList = twoDigits hours ++ ':' :: twoDigits minutes) :
    TimeOfDay sched.time ↔ hours < 24 := by
  constructor
  · rintro ⟨hours', bound, minutes', _, shape'⟩
    have same := (time_eq_iff (by omega) (by omega) (by omega) (by omega)).mp
      (shape.symm.trans shape')
    omega
  · exact fun bound => ⟨hours, bound, minutes, minutesBound, shape⟩

end

/-- An accepted schedule matches in seven days as often as its days say precisely if
its time is a time of day and its days are days of the week. -/
theorem weekly_iff (sched : Schedule) (first : Int) (tick : Nat → Int)
    (ticks : TicksEveryMinute first tick) :
    matchingMinutes sched tick = intendedMatches sched ↔
      TimeOfDay sched.time ∧ DaysOfWeek sched := by
  obtain ⟨hours, hoursBound, minutes, minutesBound, shape⟩ := time_shape sched
  rw [matchingMinutes_eq hoursBound minutesBound shape ticks,
    timeOfDay_iff hoursBound minutesBound shape]
  by_cases everyDay : sched.days = none ∨ sched.days = some []
  · have all : intendedMatches sched = 7 ∧ DaysOfWeek sched := by
      rcases everyDay with listed | listed <;> simp [intendedMatches, DaysOfWeek, listed]
    rw [count_everyDay everyDay, all.1]
    split_ifs with inDay
    · exact iff_of_true rfl ⟨inDay, all.2⟩
    · exact iff_of_false (by decide) fun holds => inDay holds.1
  · obtain ⟨notNone, notEmpty⟩ := not_or.mp everyDay
    obtain ⟨days, listed⟩ := Option.ne_none_iff_exists'.mp notNone
    have given : days ≠ [] := fun empty => notEmpty (by rw [listed, empty])
    have intended : intendedMatches sched = days.toFinset.card := by
      rw [intendedMatches, listed]
      cases days with
      | nil => exact absurd rfl given
      | cons day rest => rfl
    have some_ : days.toFinset.card ≠ 0 := by
      rw [Finset.card_ne_zero, List.toFinset_nonempty_iff]
      exact given
    rw [count_onDay listed given, intended]
    split_ifs with inDay
    · rw [Finset.card_filter_eq_iff]
      simp [DaysOfWeek, listed, inDay]
    · exact iff_of_false (Ne.symm some_) fun holds => inDay holds.1

/-- A schedule that stops a VM at a time on some days. -/
def stopAt (time : String) (days : Option (List Int)) : ScheduleAttributes :=
  { idSlug := "stop", name := "Stop", action := "stop", time := time, days := days,
    groupName := none, vmNames := some ["web-1"], playbook := none, enabled := some true,
    lastFiredAt := none }

def weekdays : Schedule :=
  { stopAt "22:00" (some [1, 2, 3, 4, 5]) with rowId := 0, valid := by decide }

def hourTwentyFive : Schedule := { stopAt "25:00" none with rowId := 0, valid := by decide }

def daySeven : Schedule := { stopAt "22:00" (some [7]) with rowId := 0, valid := by decide }

/-- The ticks at the beginning of every minute. -/
def everyMinute (k : Nat) : Int := k * usecPerMinute

theorem everyMinute_ticks : TicksEveryMinute 0 everyMinute := by
  intro k _
  rw [minuteIndex, everyMinute, usecPerMinute]
  omega

theorem weekly_iff_weekdays :
    matchingMinutes weekdays everyMinute = intendedMatches weekdays ↔
      TimeOfDay weekdays.time ∧ DaysOfWeek weekdays :=
  weekly_iff weekdays 0 everyMinute everyMinute_ticks

/-- An accepted hour of 25 and an accepted day of 7 never match. -/
theorem accepted_never_matches :
    matchingMinutes hourTwentyFive everyMinute = 0 ∧ intendedMatches hourTwentyFive = 7 ∧
      matchingMinutes daySeven everyMinute = 0 ∧ intendedMatches daySeven = 1 := by
  have late := matchingMinutes_eq (show 25 < 30 by decide) (show 0 < 60 by decide)
    (show hourTwentyFive.time.toList = twoDigits 25 ++ ':' :: twoDigits 0 by decide)
    everyMinute_ticks
  have none := matchingMinutes_eq (show 22 < 30 by decide) (show 0 < 60 by decide)
    (show daySeven.time.toList = twoDigits 22 ++ ':' :: twoDigits 0 by decide) everyMinute_ticks
  exact ⟨late, rfl, none.trans (by decide), by decide⟩

end MultipassWebui.Scheduler
