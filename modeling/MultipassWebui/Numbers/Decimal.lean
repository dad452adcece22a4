import MultipassWebui.Numbers.Binary64
import MultipassWebui.Text.Strings

/-!
# Numbers in decimal

The lenient reading of floating-point numbers, `String#to_f`, their formatting
with a fixed number of places, and what both readings make of the digits of a
natural number.
-/

namespace MultipassWebui.Numbers

open MultipassWebui.Text

/-- The digits at the beginning, without single underscores between them, and
what follows. -/
def digitRun : List Char → List Char × List Char
  | [] => ([], [])
  | [char] => if isDigit char then ([char], []) else ([], [char])
  | char :: next :: rest =>
      if isDigit char then
        let run :=
          if next = '_' && rest.head?.any isDigit then digitRun rest else digitRun (next :: rest)
        (char :: run.1, run.2)
      else ([], char :: next :: rest)

/-- The digits after a decimal point, of which there can be none, and what follows. -/
def fractionRun : List Char → List Char × List Char
  | '.' :: rest => digitRun rest
  | rest => ([], rest)

/-- The exponent of ten. -/
def exponentRun (text : List Char) : ℤ :=
  let value := fun rest => (Nat.ofDigitChars 10 (digitRun rest).1 0 : ℤ)
  match text with
  | 'e' :: '-' :: rest | 'E' :: '-' :: rest => -value rest
  | 'e' :: '+' :: rest | 'E' :: '+' :: rest => value rest
  | 'e' :: rest | 'E' :: rest => value rest
  | _ => 0

/-- The exact value of a number without its sign. -/
def magnitude (text : List Char) : ℚ :=
  let whole := digitRun text
  let fraction := fractionRun whole.2
  Nat.ofDigitChars 10 (whole.1 ++ fraction.1) 0 *
    10 ^ (exponentRun fraction.2 - (fraction.1.length : ℤ))

/-- `to_f`: zero on text that does not begin with a number. -/
def toF (text : List Char) : Double :=
  match text.dropWhile isWhite with
  | '-' :: rest => Double.ofRat (-magnitude rest)
  | '+' :: rest => Double.ofRat (magnitude rest)
  | rest => Double.ofRat (magnitude rest)

/-- `format("%.2f", value)`, with any number of places. -/
def fixed (places : ℕ) (value : ℚ) : String :=
  let scaled := (roundEven (|value| * 10 ^ places)).toNat
  let fraction := Nat.toDigits 10 (scaled % 10 ^ places)
  (if value < 0 then "-" else "") ++ toString (scaled / 10 ^ places) ++ "." ++
    String.ofList (List.replicate (places - fraction.length) '0' ++ fraction)

/-! ## The digits of a natural number -/

/-- A digit is no blank, no sign and no separator. -/
theorem ne_of_isDigit {char other : Char} (digit : isDigit char = true)
    (outside : isDigit other = false) : char ≠ other := by
  rintro rfl
  rw [digit] at outside
  cases outside

theorem digitRun_digits {digits : List Char} (all : ∀ char ∈ digits, isDigit char = true) :
    digitRun digits = (digits, []) := by
  induction digits with
  | nil => rfl
  | cons first rest ih =>
      have later := ih fun char member => all char (List.mem_cons_of_mem _ member)
      have digit := all first List.mem_cons_self
      cases rest with
      | nil => simp [digitRun, digit]
      | cons next rest =>
          have noSeparator : next ≠ '_' :=
            ne_of_isDigit (all next (List.mem_cons_of_mem _ List.mem_cons_self)) (by decide)
          simp [digitRun, digit, noSeparator, later]

/-- `to_i` and `to_f` drop nothing in front of a digit. -/
theorem dropWhile_digits {digits : List Char} (all : ∀ char ∈ digits, isDigit char = true) :
    digits.dropWhile isWhite = digits := by
  cases digits with
  | nil => rfl
  | cons first rest =>
      have notWhite := isWhite_of_isDigit (all first List.mem_cons_self)
      rw [List.dropWhile_cons_of_neg (by rw [notWhite]; exact Bool.false_ne_true)]

/-- Digits are read without a fraction and without an exponent. -/
theorem magnitude_digits {digits : List Char} (all : ∀ char ∈ digits, isDigit char = true) :
    magnitude digits = Nat.ofDigitChars 10 digits 0 := by
  simp [magnitude, digitRun_digits all, fractionRun, exponentRun]

theorem toF_digits {digits : List Char} (all : ∀ char ∈ digits, isDigit char = true) :
    toF digits = Double.ofRat (Nat.ofDigitChars 10 digits 0) := by
  rw [← magnitude_digits all]
  unfold toF
  rw [dropWhile_digits all]
  split
  · exact absurd (all '-' List.mem_cons_self) (by decide)
  · exact absurd (all '+' List.mem_cons_self) (by decide)
  · rfl

/-- Digits are read up to a point. -/
theorem digitRun_point {digits : List Char} (all : ∀ char ∈ digits, isDigit char = true)
    (rest : List Char) : digitRun (digits ++ '.' :: rest) = (digits, '.' :: rest) := by
  induction digits with
  | nil => cases rest <;> rfl
  | cons first others ih =>
      have later := ih fun char member => all char (List.mem_cons_of_mem _ member)
      have digit := all first List.mem_cons_self
      cases others with
      | nil =>
          rw [List.nil_append] at later
          simp [digitRun, digit, later]
      | cons next others =>
          have noSeparator : next ≠ '_' :=
            ne_of_isDigit (all next (List.mem_cons_of_mem _ List.mem_cons_self)) (by decide)
          rw [List.cons_append] at later
          simp [digitRun, digit, noSeparator, later]

section Fraction

variable {whole fraction : List Char} (wholeDigits : ∀ char ∈ whole, isDigit char = true)
  (fractionDigits : ∀ char ∈ fraction, isDigit char = true)

include wholeDigits fractionDigits

/-- Digits before and after a point are those of a number over a power of ten. -/
theorem magnitude_fraction : magnitude (whole ++ '.' :: fraction) =
    Nat.ofDigitChars 10 (whole ++ fraction) 0 / 10 ^ fraction.length := by
  rw [magnitude, digitRun_point wholeDigits]
  simp only [fractionRun, digitRun_digits fractionDigits, exponentRun, zero_sub, zpow_neg,
    zpow_natCast, div_eq_mul_inv]

theorem toF_fraction (nonempty : whole ≠ []) : toF (whole ++ '.' :: fraction) =
    Double.ofRat (Nat.ofDigitChars 10 (whole ++ fraction) 0 / 10 ^ fraction.length) := by
  rw [← magnitude_fraction wholeDigits fractionDigits]
  cases whole with
  | nil => exact absurd rfl nonempty
  | cons first others =>
      have digit : ∀ char ∈ [first], isDigit char = true := by
        simpa using wholeDigits first List.mem_cons_self
      have kept : ∀ rest : List Char, (first :: rest).dropWhile isWhite = first :: rest := by
        intro rest
        have alone := dropWhile_digits digit
        rw [List.dropWhile_eq_self_iff] at alone ⊢
        exact fun _ => alone (by simp)
      rw [toF, List.cons_append, kept]
      split
      · rename_i minus
        exact absurd ((List.cons.inj minus).1 ▸ digit first List.mem_cons_self) (by decide)
      · rename_i plus
        exact absurd ((List.cons.inj plus).1 ▸ digit first List.mem_cons_self) (by decide)
      · rfl

end Fraction

/-- A number with a decimal point. -/
structure Decimal where
  whole : List Char
  fraction : List Char
  wholeDigits : ∀ char ∈ whole, isDigit char = true
  fractionDigits : ∀ char ∈ fraction, isDigit char = true
  wholeGiven : whole ≠ []

namespace Decimal

def text (number : Decimal) : List Char := number.whole ++ '.' :: number.fraction

/-- The number that the digits make without the point. -/
def numeral (number : Decimal) : ℕ := Nat.ofDigitChars 10 (number.whole ++ number.fraction) 0

def places (number : Decimal) : ℕ := number.fraction.length

def value (number : Decimal) : ℚ := number.numeral / 10 ^ number.places

theorem toF_text (number : Decimal) : toF number.text = Double.ofRat number.value :=
  toF_fraction number.wholeDigits number.fractionDigits number.wholeGiven

end Decimal

theorem readDigits_digits {digits : List Char} (value : ℕ)
    (all : ∀ char ∈ digits, isDigit char = true) :
    readDigits value digits = Nat.ofDigitChars 10 digits value := by
  induction digits generalizing value with
  | nil => rfl
  | cons first rest ih =>
      have digit := all first List.mem_cons_self
      have next : 10 * value + (first.toNat - '0'.toNat) = value * 10 + digitValue first := by
        rw [Nat.mul_comm]
        rfl
      rw [Nat.ofDigitChars_cons, next, ← ih _ fun char member =>
        all char (List.mem_cons_of_mem _ member)]
      cases rest with
      | nil => simp [readDigits, digit]
      | cons second rest => simp [readDigits, digit]

theorem toI_digits {digits : List Char} (all : ∀ char ∈ digits, isDigit char = true) :
    toI digits = (Nat.ofDigitChars 10 digits 0 : ℕ) := by
  have plain : readMagnitude digits = Nat.ofDigitChars 10 digits 0 := by
    rw [← readDigits_digits 0 all]
    unfold readMagnitude
    split
    · exact absurd (all 'd' (by simp)) (by decide)
    · exact absurd (all 'D' (by simp)) (by decide)
    · apply if_neg
      intro separator
      exact absurd (all '_' (List.mem_of_mem_head? separator)) (by decide)
  unfold toI
  rw [dropWhile_digits all]
  split
  · exact absurd (all '-' List.mem_cons_self) (by decide)
  · exact absurd (all '+' List.mem_cons_self) (by decide)
  · rw [plain]

/-- What is written of a natural number is read back as an integer. -/
theorem toI_toDigits (value : ℕ) : toI (Nat.toDigits 10 value) = value := by
  rw [toI_digits fun _ => toDigits_isDigit, Nat.ofDigitChars_ten_toDigits]

/-- And as a floating-point number. -/
theorem toF_toDigits (value : ℕ) : toF (Nat.toDigits 10 value) = Double.ofRat value := by
  rw [toF_digits fun _ => toDigits_isDigit, Nat.ofDigitChars_ten_toDigits]

end MultipassWebui.Numbers
