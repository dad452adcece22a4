import MultipassWebui.Multipass.Sizes
import MultipassWebui.Numbers.Rounding
import MultipassWebui.Text.Integers

/-!
# Sizes with a decimal point

multipass prints the sizes it was not given as whole numbers with a fraction,
such as `953.7MiB`.  The parsers read them by way of floating-point numbers,
and still round the size that the text stands for down, exactly.
-/

namespace MultipassWebui.Multipass

open MultipassWebui.Effect
open MultipassWebui.Numbers
open MultipassWebui.Text

/-! ## Taking the unit off -/

section

variable (front : List Char) {body : List Char} {char : Char} (member : char ∈ body)
  (digit : isDigit char = true)

include member digit

/-- A suffix has no digit, so it does not reach before one. -/
theorem find_suffix_append :
    (SUFFIXES.find? fun suffix => suffix.toList.isSuffixOf (front ++ body)) =
      SUFFIXES.find? fun suffix => suffix.toList.isSuffixOf body := by
  apply List.find?_congr
  intro suffix isSuffix
  have noDigit : ∀ suffix ∈ SUFFIXES, ∀ char ∈ suffix.toList, isDigit char = false := by
    simp [SUFFIXES, isDigit]
  rw [Bool.eq_iff_iff, List.isSuffixOf_iff_suffix, List.isSuffixOf_iff_suffix]
  constructor
  · intro ends
    rcases List.suffix_or_suffix_of_suffix ends (List.suffix_append front body) with
      short | long
    · exact short
    · have outside := noDigit suffix isSuffix char (long.subset member)
      rw [digit] at outside
      cases outside
  · intro ends
    exact ends.trans (List.suffix_append front body)

/-- What stands before a digit stays in front of the number. -/
theorem stripUnitSuffix_append : stripUnitSuffix (front ++ body) =
    (front ++ (stripUnitSuffix body).1, (stripUnitSuffix body).2) := by
  have nonempty : body ≠ [] := List.ne_nil_of_mem member
  unfold stripUnitSuffix
  rw [find_suffix_append front member digit]
  cases found : SUFFIXES.find? fun suffix => suffix.toList.isSuffixOf body with
  | some suffix =>
      have isSuffix := List.find?_some found
      rw [List.isSuffixOf_iff_suffix] at isSuffix
      have fits := isSuffix.length_le
      rw [String.length_toList] at fits
      have count : (front ++ body).length - suffix.length =
          front.length + (body.length - suffix.length) := by
        rw [List.length_append]
        omega
      simp only [count, List.take_length_add_append]
  | none =>
      rw [List.getLast?_append_of_ne_nil _ nonempty]
      cases last : body.getLast? with
      | none => exact absurd (List.getLast?_eq_none_iff.mp last) nonempty
      | some letter =>
          have letters : SINGLE_LETTERS.all (fun letter => !isDigit letter) = true := by decide
          by_cases isLetter : letter ∈ SINGLE_LETTERS
          · have other : letter ≠ char := by
              rintro rfl
              have outside := List.all_eq_true.mp letters _ isLetter
              rw [digit] at outside
              cases outside
            have two : 1 < body.length := by
              cases body with
              | nil => cases member
              | cons first rest =>
                  cases rest with
                  | nil =>
                      cases last
                      exact absurd (List.mem_singleton.mp member).symm other
                  | cons second rest => simp
            have more : 1 < front.length + body.length := by omega
            simp [two, more, isLetter, List.dropLast_append_of_ne_nil nonempty]
          · simp [isLetter]

end

/-! ## What the parsers read -/

/-- A text that is a decimal fraction and a unit once its blanks are gone. -/
structure SpellsDecimal (s : String) (number : Decimal) (unit : SizeUnit) : Prop where
  fractionGiven : number.fraction ≠ []
  stripped : ∃ suffix ∈ unit.suffixes, (strip s).toList = number.text ++ suffix.toList

section

variable {value places : ℕ}

theorem truncate_times {shift : ℤ} {numerator denominator : ℕ} (positive : 0 < denominator)
    (small : numerator < 2 ^ 53) (low : -40 ≤ shift) (high : shift ≤ 40)
    (product : (value / 10 ^ places : ℚ) * 2 ^ shift = numerator / denominator) :
    truncate ((Double.ofRat (value / 10 ^ places)).times (2 ^ shift)) =
      .ok (numerator / denominator : ℕ) := by
  rw [truncate, Double.toInt_times positive small low high product]

theorem truncate_times_1024_fraction (small : value * 2 ^ 10 < 2 ^ 53) :
    truncate ((Double.ofRat (value / 10 ^ places)).times 1024) =
      .ok (value * 2 ^ 10 / 10 ^ places : ℕ) := by
  have moved := @truncate_times value places 10 (value * 2 ^ 10) (10 ^ places) (by positivity)
    small (by decide) (by decide) (by push_cast; ring)
  norm_num at moved ⊢
  exact moved

theorem truncate_times_1024_times_1024_fraction (small : value * 2 ^ 20 < 2 ^ 53) :
    truncate (((Double.ofRat (value / 10 ^ places)).times 1024).times 1024) =
      .ok (value * 2 ^ 20 / 10 ^ places : ℕ) := by
  have moved := @truncate_times value places 20 (value * 2 ^ 20) (10 ^ places) (by positivity)
    small (by decide) (by decide) (by push_cast; ring)
  have bounds := @Double.bounds_of_product (value / 10 ^ places) 20 (value * 2 ^ 20)
    (10 ^ places) (by positivity) small (by decide) (by decide) (by push_cast; ring)
  have once := Double.times_times bounds.1 bounds.2
  norm_num at once moved ⊢
  rw [once, moved]

theorem truncate_over_1024_fraction (small : value < 2 ^ 53) :
    truncate ((Double.ofRat (value / 10 ^ places)).times (1 / 1024)) =
      .ok (value / (10 ^ places * 2 ^ 10) : ℕ) := by
  have moved := @truncate_times value places (-10) value (10 ^ places * 2 ^ 10) (by positivity)
    small (by decide) (by decide)
    (by push_cast; rw [div_mul_eq_div_div]; norm_num [div_eq_mul_inv])
  norm_num at moved ⊢
  exact moved

theorem truncate_fraction (small : value < 2 ^ 53) :
    truncate (Double.ofRat (value / 10 ^ places)) = .ok (value / 10 ^ places : ℕ) := by
  have moved := @truncate_times value places 0 value (10 ^ places) (by positivity) small
    (by decide) (by decide) (by push_cast; ring)
  have bounds := @Double.bounds_of_product (value / 10 ^ places) 0 value (10 ^ places)
    (by positivity) small (by decide) (by decide) (by push_cast; ring)
  rw [zpow_zero, Double.times_one bounds.1 bounds.2] at moved
  exact moved

end

/-- Powers of two that a fraction is cleared of. -/
theorem mul_pow_div (value denominator up down : ℕ) :
    value * 2 ^ (up + down) / (denominator * 2 ^ down) = value * 2 ^ up / denominator := by
  rw [pow_add, ← mul_assoc, Nat.mul_div_mul_right _ _ (by positivity)]

theorem mul_div_pow (value denominator up down : ℕ) :
    value * 2 ^ up / (denominator * 2 ^ (down + up)) = value / (denominator * 2 ^ down) := by
  rw [pow_add, ← mul_assoc denominator, Nat.mul_div_mul_right _ _ (by positivity)]

section

variable {s : String} {number : Decimal} {unit : SizeUnit}
  (spells : SpellsDecimal s number unit)

include spells

theorem SpellsDecimal.split : (strip s).toList ≠ [] ∧
    ∃ letter, stripUnitSuffix (strip s).toList = (number.text, letter) ∧
      letter.toLower = unit.letter := by
  rcases spells.stripped with ⟨suffix, isSuffix, text⟩
  rcases stripUnitSuffix_digits number.fractionDigits spells.fractionGiven isSuffix with
    ⟨letter, split, isLetter⟩
  rcases List.exists_mem_of_ne_nil number.fraction spells.fractionGiven with ⟨char, member⟩
  have within : char ∈ number.fraction ++ suffix.toList := List.mem_append_left _ member
  have digit := number.fractionDigits char member
  have joined : number.text ++ suffix.toList =
      (number.whole ++ ['.']) ++ (number.fraction ++ suffix.toList) := by simp [Decimal.text]
  constructor
  · rw [text]
    simp [Decimal.text]
  · refine ⟨letter, ?_, isLetter⟩
    rw [text, joined, stripUnitSuffix_append _ within digit, split]
    simp [Decimal.text]

omit spells in
/-- The whole part, which is all that an integer is read from. -/
theorem toI_text (number : Decimal) :
    toI number.text = (number.numeral / 10 ^ number.places : ℕ) := by
  have ends : EndsNumber ('.' :: number.fraction) := by
    intro char isHead
    cases isHead
    decide
  have bound := ofDigitChars_lt number.fractionDigits
  have positive : 0 < 10 ^ number.fraction.length := by positivity
  rw [Decimal.text, toI_digits_append number.wholeGiven number.wholeDigits ends, Decimal.numeral,
    Decimal.places, Nat.ofDigitChars_append, @Nat.ofDigitChars_eq_ofDigitChars_zero number.fraction,
    Nat.mul_add_div positive, Nat.div_eq_of_lt bound, Nat.add_zero]

/-- The megabytes of a size, rounded down. -/
theorem parseMemoryToMb_fraction
    (small : number.numeral * max 1 (unit.bytes / 2 ^ 20) < 2 ^ 53) :
    parseMemoryToMb s =
      .ok (number.numeral * unit.bytes / (10 ^ number.places * 2 ^ 20) : ℕ) := by
  rcases spells.split with ⟨given, letter, split, isLetter⟩
  have read := number.toF_text
  have whole := toI_text number
  rw [Decimal.value] at read
  generalize number.numeral = value at *
  generalize number.places = places at *
  unfold parseMemoryToMb
  simp only [if_neg given, split, isLetter]
  cases unit with
  | byte =>
      have same : ((value / 10 ^ places : ℕ) : ℤ) / (1024 * 1024) =
          (value / 10 ^ places / 2 ^ 20 : ℕ) := by omega
      simp only [SizeUnit.letter, SizeUnit.bytes]
      rw [whole, same, Nat.mul_one, Nat.div_div_eq_div_mul]
      rfl
  | kibi =>
      have same := mul_div_pow value (10 ^ places) 10 10
      simp only [SizeUnit.letter, SizeUnit.bytes]
      rw [read, truncate_over_1024_fraction (by simpa [SizeUnit.bytes] using small), same]
  | mebi =>
      have same := mul_pow_div value (10 ^ places) 0 20
      simp only [SizeUnit.letter, SizeUnit.bytes]
      rw [read, truncate_fraction (by simpa [SizeUnit.bytes] using small), same, pow_zero,
        Nat.mul_one]
  | gibi =>
      have same := mul_pow_div value (10 ^ places) 10 20
      simp only [SizeUnit.letter, SizeUnit.bytes]
      rw [read, truncate_times_1024_fraction (by simpa [SizeUnit.bytes] using small), same]
  | tebi =>
      have same := mul_pow_div value (10 ^ places) 20 20
      simp only [SizeUnit.letter, SizeUnit.bytes]
      rw [read, truncate_times_1024_times_1024_fraction (by simpa [SizeUnit.bytes] using small),
        same]

/-- The gigabytes that the other parser reads: kibibytes count as bytes. -/
theorem parseDiskToGb_fraction
    (small : number.numeral * max 1 (unit.bytes / 2 ^ 20) < 2 ^ 53) :
    parseDiskToGb s = .ok (number.numeral * (if unit = .kibi then 1 else unit.bytes) /
      (10 ^ number.places * 2 ^ 30) : ℕ) := by
  rcases spells.split with ⟨given, letter, split, isLetter⟩
  have read := number.toF_text
  have whole := toI_text number
  rw [Decimal.value] at read
  generalize number.numeral = value at *
  generalize number.places = places at *
  unfold parseDiskToGb
  simp only [if_neg given, split, isLetter]
  cases unit with
  | byte | kibi =>
      have same : ((value / 10 ^ places : ℕ) : ℤ) / (1024 * 1024 * 1024) =
          (value / 10 ^ places / 2 ^ 30 : ℕ) := by omega
      simp only [SizeUnit.letter, SizeUnit.bytes, ite_self, if_true]
      rw [whole, same, Nat.mul_one, Nat.div_div_eq_div_mul]
      rfl
  | mebi =>
      have same := mul_div_pow value (10 ^ places) 20 10
      simp only [SizeUnit.letter, SizeUnit.bytes]
      rw [read, truncate_over_1024_fraction (by simpa [SizeUnit.bytes] using small),
        if_neg (by decide), same]
  | gibi =>
      have fits : value < 2 ^ 53 := (Nat.le_mul_of_pos_right _ (by decide)).trans_lt small
      have same := mul_pow_div value (10 ^ places) 0 30
      simp only [SizeUnit.letter, SizeUnit.bytes]
      rw [read, truncate_fraction fits, if_neg (by decide), same, pow_zero, Nat.mul_one]
  | tebi =>
      have fits : value * 2 ^ 10 < 2 ^ 53 :=
        (Nat.mul_le_mul_left _ (by decide)).trans_lt small
      have same := mul_pow_div value (10 ^ places) 10 30
      simp only [SizeUnit.letter, SizeUnit.bytes]
      rw [read, truncate_times_1024_fraction fits, if_neg (by decide), same]

/-- No rounding of floating-point numbers shows: the megabytes are those of the text,
rounded down, and so are the gigabytes, but for a gibibyte or more of kibibytes. -/
theorem decimalSizes (small : number.numeral * max 1 (unit.bytes / 2 ^ 20) < 2 ^ 53) :
    parseMemoryToMb s =
        .ok (number.numeral * unit.bytes / (10 ^ number.places * 2 ^ 20) : ℕ) ∧
      (parseDiskToGb s =
          .ok (number.numeral * unit.bytes / (10 ^ number.places * 2 ^ 30) : ℕ) ↔
        (unit = .kibi → number.numeral < 10 ^ number.places * 2 ^ 20)) := by
  have positive : 0 < 10 ^ number.places := by positivity
  refine ⟨parseMemoryToMb_fraction spells small, ?_⟩
  rw [parseDiskToGb_fraction spells small]
  by_cases kibi : unit = .kibi
  · subst kibi
    have more : number.numeral * SizeUnit.kibi.bytes / (10 ^ number.places * 2 ^ 30) =
        number.numeral / (10 ^ number.places * 2 ^ 20) :=
      mul_div_pow (number.numeral) (10 ^ number.places) 10 20
    have fewer : number.numeral / (10 ^ number.places * 2 ^ 30) =
        number.numeral / (10 ^ number.places * 2 ^ 20) / 2 ^ 10 := by
      rw [Nat.div_div_eq_div_mul, mul_assoc]
      rfl
    rw [if_pos rfl, Nat.mul_one, more, fewer]
    constructor
    · intro same _
      have quotients := Int.natCast_inj.mp (Except.ok.inj same)
      by_contra many
      have one : 1 ≤ number.numeral / (10 ^ number.places * 2 ^ 20) :=
        (Nat.one_le_div_iff (by positivity)).mpr (not_lt.mp many)
      omega
    · intro few
      rw [Nat.div_eq_of_lt (few rfl), Nat.zero_div]
  · rw [if_neg kibi]
    exact iff_of_true rfl fun isKibi => absurd isKibi kibi

end

/-- A size as multipass prints it. -/
theorem decimalSizes_gibibytes :
    parseMemoryToMb "1.9GiB" = .ok (19 * 2 ^ 30 / (10 * 2 ^ 20) : ℕ) ∧
      (parseDiskToGb "1.9GiB" = .ok (19 * 2 ^ 30 / (10 * 2 ^ 30) : ℕ) ↔
        (SizeUnit.gibi = .kibi → 19 < 10 * 2 ^ 20)) := by
  have spells : SpellsDecimal "1.9GiB"
      ⟨['1'], ['9'], by simp [isDigit], by simp [isDigit], by decide⟩ .gibi :=
    ⟨by decide, "GiB", by decide, by decide⟩
  exact decimalSizes spells (by decide)

end MultipassWebui.Multipass
