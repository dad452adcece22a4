import MultipassWebui.Numbers.Binary64

/-!
# How far rounding goes

The error of a rounding is at most half a unit of the last place.  A fraction
whose numerator has 53 bits is farther from every integer than that, so its
whole part survives the rounding, and the powers of two that follow it.
-/

namespace MultipassWebui.Numbers

theorem abs_roundEven_sub_le (value : ℚ) : |roundEven value - value| ≤ 1 / 2 := by
  have low := Int.floor_le value
  have high := Int.lt_floor_add_one value
  rw [abs_le]
  unfold roundEven
  dsimp only
  split_ifs <;> push_cast <;> constructor <;> linarith

theorem roundEven_nonneg {value : ℚ} (nonneg : 0 ≤ value) : 0 ≤ roundEven value :=
  (Int.floor_nonneg.mpr nonneg).trans (floor_le_roundEven value)

namespace Binary64

theorem zpow_two_pos (exponent : ℤ) : (0 : ℚ) < 2 ^ exponent :=
  zpow_pos (by norm_num) exponent

theorem nearest_nonneg {value : ℚ} (nonneg : 0 ≤ value) : 0 ≤ nearest value := by
  have positive := zpow_two_pos (exponentOf value)
  have significand := roundEven_nonneg (div_nonneg nonneg positive.le)
  exact mul_nonneg (Int.cast_nonneg significand) positive.le

/-- Half a unit of the last place, in terms of the value. -/
theorem zpow_exponentOf_le {value : ℚ} (nonzero : value ≠ 0) :
    (2 : ℚ) ^ exponentOf value / 2 ≤ max (|value| / 2 ^ PRECISION) (2 ^ (LEAST - 1)) := by
  have two : (2 : ℚ) ≠ 0 := by norm_num
  rcases max_choice (Int.log 2 |value| + 1 - PRECISION) LEAST with normal | subnormal
  · have below : (2 : ℚ) ^ Int.log 2 |value| ≤ |value| :=
      Int.zpow_log_le_self (by norm_num) (abs_pos.mpr nonzero)
    apply le_max_of_le_left
    rw [exponentOf, normal, zpow_sub₀ two, zpow_add₀ two, zpow_one, zpow_natCast, div_right_comm,
      mul_div_cancel_right₀ _ two]
    exact div_le_div_of_nonneg_right below (by positivity)
  · apply le_max_of_le_right
    rw [exponentOf, subnormal, zpow_sub₀ two, zpow_one]

/-- The error of a rounding. -/
theorem abs_nearest_sub_le (value : ℚ) :
    |nearest value - value| ≤ max (|value| / 2 ^ PRECISION) (2 ^ (LEAST - 1)) := by
  by_cases zero : value = 0
  · subst zero
    have same : nearest 0 = 0 := by simp [nearest, roundEven]
    rw [same, sub_zero, abs_zero]
    exact le_max_of_le_right (zpow_two_pos _).le
  · have positive := zpow_two_pos (exponentOf value)
    have scaled : nearest value - value =
        (roundEven (value / 2 ^ exponentOf value) - value / 2 ^ exponentOf value) *
          2 ^ exponentOf value := by
      rw [sub_mul, div_mul_cancel₀ _ positive.ne']
      rfl
    rw [scaled, abs_mul, abs_of_pos positive]
    calc |(roundEven (value / 2 ^ exponentOf value) : ℚ) - value / 2 ^ exponentOf value| *
          2 ^ exponentOf value
        ≤ 1 / 2 * 2 ^ exponentOf value :=
          mul_le_mul_of_nonneg_right (abs_roundEven_sub_le _) positive.le
      _ = 2 ^ exponentOf value / 2 := by ring
      _ ≤ _ := zpow_exponentOf_le zero

/-- The error, of a value that is moved by a power of two. -/
theorem abs_nearest_mul_sub_le (value : ℚ) (shift : ℤ) :
    |nearest value * 2 ^ shift - value * 2 ^ shift| ≤
      max (|value * 2 ^ shift| / 2 ^ PRECISION) (2 ^ (LEAST - 1 + shift)) := by
  have positive := zpow_two_pos shift
  have moved := mul_le_mul_of_nonneg_right (abs_nearest_sub_le value) positive.le
  rw [max_mul_of_nonneg _ _ positive.le, div_mul_eq_mul_div,
    ← zpow_add₀ (by norm_num : (2 : ℚ) ≠ 0)] at moved
  rw [← sub_mul, abs_mul, abs_mul, abs_of_pos positive]
  exact moved

/-! ## Powers of two -/

/-- A value of the format, moved upwards, is one. -/
theorem representable_mul_pow {value : ℚ} (representable : Representable value) (shift : ℕ) :
    Representable (value * 2 ^ shift) := by
  rcases representable with ⟨significand, exponent, small, least, rfl⟩
  refine ⟨significand, exponent + shift, small, by omega, ?_⟩
  rw [zpow_add₀ (by norm_num : (2 : ℚ) ≠ 0), zpow_natCast, mul_assoc]

/-- Moved downwards as well, as long as it does not become tiny. -/
theorem representable_mul_zpow {value : ℚ} (representable : Representable value) {shift : ℤ}
    (large : 1 / 4 ≤ |value * 2 ^ shift|) : Representable (value * 2 ^ shift) := by
  rcases representable with ⟨significand, exponent, small, _, rfl⟩
  have two : (2 : ℚ) ≠ 0 := by norm_num
  have joined : (significand : ℚ) * 2 ^ exponent * 2 ^ shift =
      significand * 2 ^ (exponent + shift) := by
    rw [mul_assoc, zpow_add₀ two]
  rw [joined] at large ⊢
  refine ⟨significand, exponent + shift, small, ?_, rfl⟩
  have bounded := @abs_lt_zpow significand (exponent + shift) small
  have quarter : (2 : ℚ) ^ (-2 : ℤ) < 2 ^ (exponent + shift + PRECISION) := by
    apply lt_of_le_of_lt _ bounded
    norm_num at large ⊢
    exact large
  have exponents := (zpow_lt_zpow_iff_right₀ (by norm_num : (1 : ℚ) < 2)).mp quarter
  simp only [PRECISION, LEAST] at exponents ⊢
  omega

/-! ## The whole part of a fraction -/

section

variable {value : ℚ} {shift : ℤ}

/-- Rounding adds little to what is at most one. -/
theorem nearest_mul_le {bound : ℚ} (high : shift ≤ 40) (nonneg : 0 ≤ value * 2 ^ shift)
    (given : value * 2 ^ shift ≤ bound) (one : bound ≤ 1) :
    nearest value * 2 ^ shift ≤ bound + 1 / 8 := by
  have error := abs_nearest_mul_sub_le value shift
  rw [abs_of_nonneg nonneg] at error
  have tiny : (2 : ℚ) ^ (LEAST - 1 + shift) ≤ 1 / 8 := by
    have power : (2 : ℚ) ^ (LEAST - 1 + shift) ≤ 2 ^ (-3 : ℤ) :=
      zpow_le_zpow_right₀ (by norm_num) (by simp only [LEAST]; omega)
    norm_num at power ⊢
    exact power
  have relative : value * 2 ^ shift / 2 ^ PRECISION ≤ 1 / 8 := by
    rw [div_le_iff₀ (by norm_num [PRECISION])]
    exact (given.trans one).trans (by norm_num [PRECISION])
  have near := error.trans (max_le relative tiny)
  rw [abs_le] at near
  linarith [near.2]

/-- And takes little from what is more than one half. -/
theorem abs_nearest_mul_sub_le_div (high : shift ≤ 40) (half : 1 / 2 < value * 2 ^ shift) :
    |nearest value * 2 ^ shift - value * 2 ^ shift| ≤ value * 2 ^ shift / 2 ^ PRECISION := by
  have error := abs_nearest_mul_sub_le value shift
  have normal : (2 : ℚ) ^ (LEAST - 1 + shift) ≤ |value * 2 ^ shift| / 2 ^ PRECISION := by
    have power : (2 : ℚ) ^ (LEAST - 1 + shift) ≤ 2 ^ (-60 : ℤ) :=
      zpow_le_zpow_right₀ (by norm_num) (by simp only [LEAST]; omega)
    apply power.trans
    rw [abs_of_pos (lt_trans (by norm_num) half), le_div_iff₀ (by norm_num [PRECISION])]
    exact le_trans (by norm_num [PRECISION]) half.le
  rw [max_eq_left normal, abs_of_pos (lt_trans (by norm_num) half)] at error
  exact error

variable {numerator denominator : ℕ} (positive : 0 < denominator)
  (small : numerator < 2 ^ PRECISION) (high : shift ≤ 40)
  (product : value * 2 ^ shift = numerator / denominator)

include positive small high product

/-- The error is less than the distance to the next integer. -/
theorem abs_nearest_mul_sub_lt (half : 1 / 2 < value * 2 ^ shift) :
    |nearest value * 2 ^ shift - value * 2 ^ shift| < 1 / denominator := by
  have below : (0 : ℚ) < denominator := Nat.cast_pos.mpr positive
  apply (abs_nearest_mul_sub_le_div high half).trans_lt
  rw [product, div_div, div_lt_div_iff₀ (by positivity) below, one_mul,
    mul_comm (denominator : ℚ)]
  exact mul_lt_mul_of_pos_right (by exact_mod_cast small) below

omit small high in
theorem div_eq_zero_of_le_half (half : value * 2 ^ shift ≤ 1 / 2) :
    numerator / denominator = 0 := by
  have below : (0 : ℚ) < denominator := Nat.cast_pos.mpr positive
  rw [product, div_le_iff₀ below] at half
  apply Nat.div_eq_of_lt
  have doubled : (numerator : ℚ) < denominator := by linarith
  exact_mod_cast doubled

/-- The whole part of a fraction survives the rounding. -/
theorem floor_nearest_mul : ⌊nearest value * 2 ^ shift⌋ = (numerator / denominator : ℕ) := by
  have below : (0 : ℚ) < denominator := Nat.cast_pos.mpr positive
  have nonneg : 0 ≤ value * 2 ^ shift := by
    rw [product]
    positivity
  rcases le_or_gt (value * 2 ^ shift) (1 / 2) with tiny | half
  · have lessThanOne := nearest_mul_le high nonneg tiny (by norm_num)
    rw [div_eq_zero_of_le_half positive product tiny, Int.floor_eq_iff]
    constructor
    · have below := nonneg_of_mul_nonneg_left nonneg (zpow_two_pos shift)
      simpa using mul_nonneg (nearest_nonneg below) (zpow_two_pos shift).le
    · exact lt_of_le_of_lt lessThanOne (by norm_num)
  · have whole : (numerator : ℚ) =
        denominator * (numerator / denominator : ℕ) + (numerator % denominator : ℕ) := by
      exact_mod_cast (Nat.div_add_mod numerator denominator).symm
    by_cases exact_ : numerator % denominator = 0
    · -- An integer that is moved back is a value of the format.
      have integer : value * 2 ^ shift = (numerator / denominator : ℕ) := by
        rw [product, div_eq_iff below.ne', whole, exact_]
        push_cast
        ring
      have quotient : numerator / denominator < 2 ^ PRECISION :=
        (Nat.div_le_self _ _).trans_lt small
      have representable : Representable value := by
        refine ⟨(numerator / denominator : ℕ), -shift, ?_, by simp only [LEAST]; omega, ?_⟩
        · rw [Nat.abs_cast]
          exact_mod_cast quotient
        · rw [zpow_neg, Int.cast_natCast, ← integer,
            mul_inv_cancel_right₀ (zpow_two_pos shift).ne']
      rw [nearest_of_representable representable, integer, Int.floor_natCast]
    · have error := abs_nearest_mul_sub_lt positive small high product half
      rw [product, abs_lt] at error
      have first : (1 : ℚ) ≤ (numerator % denominator : ℕ) := by
        exact_mod_cast Nat.pos_of_ne_zero exact_
      have last : ((numerator % denominator : ℕ) : ℚ) + 1 ≤ denominator := by
        exact_mod_cast Nat.mod_lt numerator positive
      have fraction : (numerator : ℚ) / denominator =
          (numerator / denominator : ℕ) + (numerator % denominator : ℕ) / denominator := by
        rw [div_eq_iff below.ne', add_mul, div_mul_cancel₀ _ below.ne']
        linarith [whole]
      have above : (1 : ℚ) / denominator ≤ (numerator % denominator : ℕ) / denominator :=
        div_le_div_of_nonneg_right first below.le
      have under : ((numerator % denominator : ℕ) : ℚ) / denominator + 1 / denominator ≤ 1 := by
        rw [← add_div, div_le_one below]
        exact last
      rw [fraction] at error
      rw [Int.floor_eq_iff, Int.cast_natCast]
      constructor
      · linarith [error.1]
      · linarith [error.2]

end

/-- The numbers that a program meets are far from the bound of the format. -/
theorem nearest_lt {value : ℚ} (nonneg : 0 ≤ value) (small : value < 2 ^ 100) :
    nearest value < 2 ^ 101 := by
  have error := abs_nearest_sub_le value
  rw [abs_of_nonneg nonneg, abs_le] at error
  have relative : value / 2 ^ PRECISION ≤ 2 ^ 99 := by
    rw [div_le_iff₀ (by positivity)]
    exact small.le.trans (by norm_num [PRECISION])
  have least : (2 : ℚ) ^ (LEAST - 1) ≤ 2 ^ 99 := by
    rw [← zpow_natCast]
    exact zpow_le_zpow_right₀ (by norm_num) (by decide)
  have near := error.2.trans (max_le relative least)
  linarith [near, small]

end Binary64

namespace Double

open Binary64

theorem abs_lt_limit {value : ℚ} (nonneg : 0 ≤ value) (small : value < 2 ^ 150) :
    |value| < 2 ^ LIMIT := by
  rw [abs_of_nonneg nonneg]
  exact small.trans_le (pow_le_pow_right₀ (by norm_num) (by decide))

theorem ofRat_of_lt {value : ℚ} (nonneg : 0 ≤ value) (small : value < 2 ^ 100) :
    ofRat value = .finite (nearest value) (representable_nearest value) := by
  have bounded : |nearest value| < 2 ^ LIMIT :=
    abs_lt_limit (nearest_nonneg nonneg) ((nearest_lt nonneg small).trans (by norm_num))
  rw [ofRat, if_pos bounded]

theorem times_one {value : ℚ} (nonneg : 0 ≤ value) (small : value < 2 ^ 100) :
    (ofRat value).times 1 = ofRat value := by
  have fits : |nearest value| < 2 ^ LIMIT :=
    abs_lt_limit (nearest_nonneg nonneg) ((nearest_lt nonneg small).trans (by norm_num))
  have once := ofRat_of_representable (representable_nearest value) fits
  rw [ofRat_of_lt nonneg small, times, mul_one, once]

/-- Two multiplications are one. -/
theorem times_times {value : ℚ} (nonneg : 0 ≤ value) (small : value < 2 ^ 100) :
    ((ofRat value).times (2 ^ 10)).times (2 ^ 10) = (ofRat value).times (2 ^ 20) := by
  have moved : 0 ≤ nearest value * 2 ^ 10 :=
    mul_nonneg (nearest_nonneg nonneg) (by positivity)
  have fits : |nearest value * 2 ^ 10| < 2 ^ LIMIT := by
    apply abs_lt_limit moved
    calc nearest value * 2 ^ 10
        ≤ 2 ^ 101 * 2 ^ 10 :=
          mul_le_mul_of_nonneg_right (nearest_lt nonneg small).le (by positivity)
      _ < 2 ^ 150 := by norm_num
  have once := ofRat_of_representable (representable_mul_pow (representable_nearest value) 10) fits
  rw [ofRat_of_lt nonneg small, times, once, times, times, mul_assoc, ← pow_add]

section

variable {value : ℚ} {shift : ℤ} {numerator denominator : ℕ} (positive : 0 < denominator)
  (small : numerator < 2 ^ PRECISION) (low : -40 ≤ shift) (high : shift ≤ 40)
  (product : value * 2 ^ shift = numerator / denominator)

include positive small low high product

theorem bounds_of_product : 0 ≤ value ∧ value < 2 ^ 100 := by
  have below : (0 : ℚ) < denominator := Nat.cast_pos.mpr positive
  have same : value = numerator / denominator * 2 ^ (-shift) := by
    rw [← product, zpow_neg, mul_inv_cancel_right₀ (zpow_two_pos shift).ne']
  have power : (2 : ℚ) ^ (-shift) ≤ 2 ^ (40 : ℤ) :=
    zpow_le_zpow_right₀ (by norm_num) (by omega)
  have fraction : (numerator : ℚ) / denominator ≤ 2 ^ PRECISION := by
    rw [div_le_iff₀ below]
    have one : (1 : ℚ) ≤ denominator := by exact_mod_cast positive
    have bounded : (numerator : ℚ) ≤ 2 ^ PRECISION := by exact_mod_cast small.le
    exact bounded.trans (le_mul_of_one_le_right (by positivity) one)
  have nonneg : (0 : ℚ) ≤ numerator / denominator := by positivity
  rw [same]
  constructor
  · exact mul_nonneg nonneg (zpow_two_pos _).le
  · calc (numerator : ℚ) / denominator * 2 ^ (-shift)
        ≤ 2 ^ PRECISION * 2 ^ (40 : ℤ) :=
          mul_le_mul fraction power (zpow_two_pos _).le (by positivity)
      _ < 2 ^ 100 := by norm_num [PRECISION]

/-- The whole part of a fraction that is moved once it is rounded. -/
theorem toInt_times : ((ofRat value).times (2 ^ shift)).toInt =
    some ((numerator / denominator : ℕ) : ℤ) := by
  rcases bounds_of_product positive small low high product with ⟨nonneg, bounded⟩
  have whole := floor_nearest_mul positive small high product
  have moved : 0 ≤ nearest value * 2 ^ shift :=
    mul_nonneg (nearest_nonneg nonneg) (zpow_two_pos shift).le
  rw [ofRat_of_lt nonneg bounded, times]
  rcases le_or_gt (value * 2 ^ shift) (1 / 2) with tiny | half
  · -- What is moved downwards may lose its last bits, but stays below one.
    have given : 0 ≤ value * 2 ^ shift := mul_nonneg nonneg (zpow_two_pos shift).le
    have first := nearest_mul_le high given tiny (by norm_num)
    have second := @nearest_mul_le (nearest value * 2 ^ shift) 0 _ (by norm_num)
      (by simpa using moved) (by simpa using first) (by norm_num)
    rw [zpow_zero, mul_one] at second
    rw [ofRat_of_lt moved (by linarith), toInt, if_pos (nearest_nonneg moved),
      div_eq_zero_of_le_half positive product tiny, Nat.cast_zero,
      Int.floor_eq_zero_iff.mpr ⟨nearest_nonneg moved, by linarith⟩]
  · have error := abs_nearest_mul_sub_le_div high half
    have relative : value * 2 ^ shift / 2 ^ PRECISION ≤ value * 2 ^ shift / 2 :=
      div_le_div_of_nonneg_left (by linarith) (by norm_num) (by norm_num [PRECISION])
    rw [abs_le] at error
    have large : 1 / 4 ≤ |nearest value * 2 ^ shift| := by
      rw [abs_of_nonneg moved]
      linarith [error.1]
    have representable := representable_mul_zpow (representable_nearest value) large
    have power : (2 : ℚ) ^ shift ≤ 2 ^ (40 : ℤ) := zpow_le_zpow_right₀ (by norm_num) high
    have fits : |nearest value * 2 ^ shift| < 2 ^ LIMIT := by
      apply abs_lt_limit moved
      calc nearest value * 2 ^ shift
          ≤ 2 ^ 101 * 2 ^ (40 : ℤ) :=
            mul_le_mul (nearest_lt nonneg bounded).le power (zpow_two_pos shift).le
              (by positivity)
        _ < 2 ^ 150 := by norm_num
    rw [ofRat_of_representable representable fits, toInt, if_pos moved, whole]

end

end Double

end MultipassWebui.Numbers
