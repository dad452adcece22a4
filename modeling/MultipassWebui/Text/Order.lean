import MultipassWebui.Text.Strings
import Mathlib.Data.String.Basic

/-!
# The order of texts

Texts are compared character by character.  Texts that are put together of parts
of the same lengths are compared part by part, and numerals of the same length
are compared as the numbers that they stand for.
-/

namespace MultipassWebui.Text

/-- The first part decides, unless it is the same. -/
theorem append_lt_append_iff {first second : List Char} (same : first.length = second.length)
    (more other : List Char) :
    first ++ more < second ++ other ↔ first < second ∨ first = second ∧ more < other := by
  induction first generalizing second with
  | nil =>
      rw [List.eq_nil_of_length_eq_zero same.symm]
      simp
  | cons head rest ih =>
      cases second with
      | nil => cases same
      | cons next others =>
          rw [List.cons_append, List.cons_append, List.cons_lt_cons_iff, List.cons_lt_cons_iff,
            ih (Nat.succ.inj same), List.cons.injEq]
          tauto

/-- A numeral of a given length, with leading zeros. -/
structure IsNumeral (width value : Nat) (text : List Char) : Prop where
  length : text.length = width
  digits : ∀ char ∈ text, isDigit char = true
  value : Nat.ofDigitChars 10 text 0 = value

/-- A smaller number stays smaller, whatever digits follow. -/
theorem ofDigitChars_lt_of_lt {first second : List Char} (same : first.length = second.length)
    (firstDigits : ∀ char ∈ first, isDigit char = true) {m n : Nat} (less : m < n) :
    Nat.ofDigitChars 10 first m < Nat.ofDigitChars 10 second n := by
  induction first generalizing second m n with
  | nil =>
      rw [List.eq_nil_of_length_eq_zero same.symm]
      exact less
  | cons head rest ih =>
      cases second with
      | nil => cases same
      | cons next others =>
          have isDigit := firstDigits head List.mem_cons_self
          rw [Text.isDigit, Bool.and_eq_true, decide_eq_true_eq, decide_eq_true_eq] at isDigit
          rw [Nat.ofDigitChars_cons, Nat.ofDigitChars_cons]
          have restDigits : ∀ char ∈ rest, Text.isDigit char = true :=
            fun char member => firstDigits char (List.mem_cons_of_mem _ member)
          have zero : '0'.toNat = 48 := rfl
          apply ih (Nat.succ.inj same) restDigits
          omega

theorem ofDigitChars_lt_of_lt_text {first second : List Char}
    (same : first.length = second.length)
    (firstDigits : ∀ char ∈ first, isDigit char = true)
    (secondDigits : ∀ char ∈ second, isDigit char = true) (less : first < second) (init : Nat) :
    Nat.ofDigitChars 10 first init < Nat.ofDigitChars 10 second init := by
  induction first generalizing second init with
  | nil =>
      rw [List.eq_nil_of_length_eq_zero same.symm] at less
      exact absurd less (lt_irrefl _)
  | cons head rest ih =>
      cases second with
      | nil => cases same
      | cons next others =>
          have restDigits : ∀ char ∈ rest, isDigit char = true :=
            fun char member => firstDigits char (List.mem_cons_of_mem _ member)
          have otherDigits : ∀ char ∈ others, isDigit char = true :=
            fun char member => secondDigits char (List.mem_cons_of_mem _ member)
          rw [Nat.ofDigitChars_cons, Nat.ofDigitChars_cons]
          rcases List.cons_lt_cons_iff.mp less with smaller | ⟨rfl, later⟩
          · have isDigit := firstDigits head List.mem_cons_self
            rw [Text.isDigit, Bool.and_eq_true, decide_eq_true_eq, decide_eq_true_eq] at isDigit
            have codes : head.toNat < next.toNat := smaller
            have zero : '0'.toNat = 48 := rfl
            apply ofDigitChars_lt_of_lt (Nat.succ.inj same) restDigits
            omega
          · exact ih (Nat.succ.inj same) restDigits otherDigits later _

namespace IsNumeral

variable {width m n : Nat} {first second : List Char}

theorem lt_iff (left : IsNumeral width m first) (right : IsNumeral width n second) :
    first < second ↔ m < n := by
  have same : first.length = second.length := left.length.trans right.length.symm
  rw [← left.value, ← right.value]
  constructor
  · intro less
    exact ofDigitChars_lt_of_lt_text same left.digits right.digits less 0
  · intro less
    rcases lt_trichotomy first second with smaller | equal | larger
    · exact smaller
    · rw [equal] at less
      exact absurd less (lt_irrefl _)
    · exact absurd less (lt_asymm
        (ofDigitChars_lt_of_lt_text same.symm right.digits left.digits larger 0))

theorem eq_iff (left : IsNumeral width m first) (right : IsNumeral width n second) :
    first = second ↔ m = n := by
  rw [← not_iff_not, ← Ne, ← Ne, lt_or_lt_iff_ne.symm, lt_or_lt_iff_ne.symm, left.lt_iff right,
    right.lt_iff left]

/-- Numerals of one length decide before what follows them. -/
theorem append_lt_append_iff (left : IsNumeral width m first) (right : IsNumeral width n second)
    (more other : List Char) :
    first ++ more < second ++ other ↔ m < n ∨ m = n ∧ more < other := by
  rw [Text.append_lt_append_iff (left.length.trans right.length.symm), left.lt_iff right,
    left.eq_iff right]

end IsNumeral

end MultipassWebui.Text
