import Mathlib.Algebra.Order.Ring.Rat
import Mathlib.Data.Int.Log
import Mathlib.Data.Rat.Floor
import Mathlib.Tactic.Linarith
import Mathlib.Tactic.Ring

/-!
# Binary floating point

The finite values of the 64-bit format are the rationals with a significand of
53 bits and an exponent of at least `-1074`.  An operation rounds its exact
result to the nearest one, and to the even one between two.  What the
development uses is that a value of the format is its own rounding.  There is
no zero with a sign, and no operation here has a result that is not a number.
-/

namespace MultipassWebui.Numbers

/-- The nearest integer, and the even one between two. -/
def roundEven (value : ℚ) : ℤ :=
  let low := ⌊value⌋
  if value - low < 1 / 2 then low
  else if 1 / 2 < value - low then low + 1
  else if low % 2 = 0 then low
  else low + 1

@[simp]
theorem roundEven_intCast (value : ℤ) : roundEven value = value := by
  simp [roundEven]

theorem floor_le_roundEven (value : ℚ) : ⌊value⌋ ≤ roundEven value := by
  unfold roundEven
  dsimp only
  split_ifs <;> omega

theorem roundEven_le (value : ℚ) : roundEven value ≤ ⌊value⌋ + 1 := by
  unfold roundEven
  dsimp only
  split_ifs <;> omega

/-- Rounding stays within integer bounds. -/
theorem abs_roundEven_le {value : ℚ} {bound : ℤ} (small : |value| < bound) :
    |roundEven value| ≤ bound := by
  rw [abs_lt] at small
  have high : ⌊value⌋ < bound := Int.floor_lt.mpr small.2
  have low : -bound ≤ ⌊value⌋ := Int.le_floor.mpr (by push_cast; exact small.1.le)
  have above := floor_le_roundEven value
  have below := roundEven_le value
  rw [abs_le]
  omega

namespace Binary64

/-- The bits of a significand. -/
def PRECISION : ℕ := 53

/-- The least exponent. -/
def LEAST : ℤ := -1074

/-- A value of the format, but for the bound on the exponent. -/
def Representable (value : ℚ) : Prop :=
  ∃ (significand exponent : ℤ), |significand| < 2 ^ PRECISION ∧ LEAST ≤ exponent ∧
    value = significand * 2 ^ exponent

/-- The exponent at which a value is rounded. -/
def exponentOf (value : ℚ) : ℤ := max (Int.log 2 |value| + 1 - PRECISION) LEAST

/-- The nearest value of the format. -/
def nearest (value : ℚ) : ℚ := roundEven (value / 2 ^ exponentOf value) * 2 ^ exponentOf value

theorem abs_lt_zpow {significand exponent : ℤ} (small : |significand| < 2 ^ PRECISION) :
    |(significand : ℚ) * 2 ^ exponent| < 2 ^ (exponent + PRECISION) := by
  have positive : (0 : ℚ) < 2 ^ exponent := zpow_pos (by norm_num) _
  have cast : |(significand : ℚ)| < 2 ^ PRECISION := by exact_mod_cast small
  rw [abs_mul, abs_of_pos positive, zpow_add₀ (by norm_num : (2 : ℚ) ≠ 0), zpow_natCast,
    mul_comm ((2 : ℚ) ^ exponent)]
  exact mul_lt_mul_of_pos_right cast positive

/-- A value is rounded at an exponent that it has. -/
theorem exponentOf_le {significand exponent : ℤ} (small : |significand| < 2 ^ PRECISION)
    (least : LEAST ≤ exponent) (nonzero : significand ≠ 0) :
    exponentOf ((significand : ℚ) * 2 ^ exponent) ≤ exponent := by
  have positive : 0 < |(significand : ℚ) * 2 ^ exponent| := by
    rw [abs_pos]
    exact mul_ne_zero (Int.cast_ne_zero.mpr nonzero) (zpow_ne_zero _ (by norm_num))
  have log := (Int.lt_zpow_iff_log_lt (b := 2) (by norm_num) positive).mp
    (by exact_mod_cast abs_lt_zpow small)
  unfold exponentOf
  omega

/-- A value of the format is its own rounding. -/
theorem nearest_of_representable {value : ℚ} (representable : Representable value) :
    nearest value = value := by
  rcases representable with ⟨significand, exponent, small, least, rfl⟩
  by_cases zero : significand = 0
  · subst zero
    simp [nearest, roundEven]
  · rcases Int.le.dest (exponentOf_le small least zero) with ⟨shift, same⟩
    have split : (2 : ℚ) ^ exponent =
        2 ^ exponentOf ((significand : ℚ) * 2 ^ exponent) * 2 ^ shift := by
      rw [← zpow_natCast, ← zpow_add₀ (by norm_num : (2 : ℚ) ≠ 0), same]
    have positive : (2 : ℚ) ^ exponentOf ((significand : ℚ) * 2 ^ exponent) ≠ 0 :=
      zpow_ne_zero _ (by norm_num)
    have whole : (significand : ℚ) * 2 ^ exponent /
        2 ^ exponentOf ((significand : ℚ) * 2 ^ exponent) =
            ((significand * 2 ^ shift : ℤ) : ℚ) := by
      rw [div_eq_iff positive]
      conv_lhs => rw [split]
      push_cast
      ring
    rw [nearest, whole, roundEven_intCast, ← whole, div_mul_cancel₀ _ positive]

theorem abs_div_lt (value : ℚ) : |value / 2 ^ exponentOf value| < 2 ^ PRECISION := by
  have positive : (0 : ℚ) < 2 ^ exponentOf value := zpow_pos (by norm_num) _
  rw [abs_div, abs_of_pos positive, div_lt_iff₀ positive, ← zpow_natCast,
    ← zpow_add₀ (by norm_num : (2 : ℚ) ≠ 0)]
  have below := Int.lt_zpow_succ_log_self (b := 2) (by norm_num) |value|
  refine lt_of_lt_of_le below ?_
  push_cast
  apply zpow_le_zpow_right₀ (by norm_num)
  unfold exponentOf
  omega

/-- The nearest value is one of the format. -/
theorem representable_nearest (value : ℚ) : Representable (nearest value) := by
  have bounded : |roundEven (value / 2 ^ exponentOf value)| ≤ 2 ^ PRECISION :=
    abs_roundEven_le (by exact_mod_cast abs_div_lt value)
  have least : LEAST ≤ exponentOf value := le_max_right _ _
  rcases bounded.lt_or_eq with small | full
  · exact ⟨_, _, small, least, rfl⟩
  · -- The significand has become one bit too long, and its last bit is zero.
    rcases (abs_eq (by positivity)).mp full with top | bottom
    · refine ⟨2 ^ (PRECISION - 1), exponentOf value + 1, by decide, by omega, ?_⟩
      rw [nearest, top, zpow_add₀ (by norm_num : (2 : ℚ) ≠ 0)]
      norm_num [PRECISION]
      ring
    · refine ⟨-2 ^ (PRECISION - 1), exponentOf value + 1, by decide, by omega, ?_⟩
      rw [nearest, bottom, zpow_add₀ (by norm_num : (2 : ℚ) ≠ 0)]
      norm_num [PRECISION]
      ring

end Binary64

/-- A floating-point number. -/
inductive Double where
  | finite (value : ℚ) (representable : Binary64.Representable value)
  | infinite (negative : Bool)

namespace Double

open Binary64

/-- The exponent from which a value is too large. -/
def LIMIT : ℕ := 1024

/-- The nearest number to an exact result. -/
def ofRat (value : ℚ) : Double :=
  if |nearest value| < 2 ^ LIMIT then .finite (nearest value) (representable_nearest value)
  else .infinite (value < 0)

/-- The product with a positive number. -/
def times (factor : ℚ) : Double → Double
  | .finite value _ => ofRat (value * factor)
  | .infinite negative => .infinite negative

/-- The integer part, which an infinite number has not. -/
def toInt : Double → Option ℤ
  | .finite value _ => some (if 0 ≤ value then ⌊value⌋ else ⌈value⌉)
  | .infinite _ => none

theorem ofRat_of_representable {value : ℚ} (representable : Representable value)
    (small : |value| < 2 ^ LIMIT) : ofRat value = .finite value representable := by
  have same := nearest_of_representable representable
  simp only [ofRat, same, if_pos small]

/-- A natural number of 53 bits, moved by a power of two, is a floating-point
number. -/
theorem ofRat_shift {value : ℕ} {shift : ℤ} (small : value < 2 ^ PRECISION)
    (least : LEAST ≤ shift) (most : shift ≤ LIMIT - PRECISION) :
    ∃ representable, ofRat (value * 2 ^ shift) = .finite (value * 2 ^ shift) representable := by
  have significand : |(value : ℤ)| < 2 ^ PRECISION := by
    rw [Nat.abs_cast]
    exact_mod_cast small
  have representable : Representable ((value : ℚ) * 2 ^ shift) :=
    ⟨value, shift, significand, least, by push_cast; rfl⟩
  have bounded : |(value : ℚ) * 2 ^ shift| < 2 ^ LIMIT := by
    have below := @abs_lt_zpow _ shift significand
    refine lt_of_lt_of_le (by exact_mod_cast below) ?_
    rw [← zpow_natCast]
    exact zpow_le_zpow_right₀ (by norm_num) (by omega)
  exact ⟨representable, ofRat_of_representable representable bounded⟩

section Shift

variable {value : ℕ} {shift : ℤ} (small : value < 2 ^ PRECISION) (least : LEAST ≤ shift)
  (most : shift ≤ LIMIT - PRECISION)

include small least most

/-- The factors of such a number are multiplied exactly. -/
theorem times_ofRat_shift (factor : ℚ) :
    (ofRat (value * 2 ^ shift)).times factor = ofRat (value * 2 ^ shift * factor) := by
  rcases ofRat_shift small least most with ⟨representable, exact_⟩
  rw [exact_, times]

theorem toInt_ofRat_shift :
    (ofRat (value * 2 ^ shift)).toInt = some ⌊(value : ℚ) * 2 ^ shift⌋ := by
  rcases ofRat_shift small least most with ⟨representable, exact_⟩
  rw [exact_, toInt, if_pos (mul_nonneg (Nat.cast_nonneg value) (zpow_nonneg zero_le_two shift))]

end Shift

theorem times_ofRat_natCast {value : ℕ} (small : value < 2 ^ PRECISION) (factor : ℚ) :
    (ofRat value).times factor = ofRat (value * factor) := by
  have product := @times_ofRat_shift value 0 small (by decide) (by decide) factor
  rw [zpow_zero, mul_one] at product
  exact product

theorem toInt_ofRat_natCast {value : ℕ} (small : value < 2 ^ PRECISION) :
    (ofRat value).toInt = some (value : ℤ) := by
  have whole := @toInt_ofRat_shift value 0 small (by decide) (by decide)
  rw [zpow_zero, mul_one, Int.floor_natCast] at whole
  exact whole

end Double

end MultipassWebui.Numbers
