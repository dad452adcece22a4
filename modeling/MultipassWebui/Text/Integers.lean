import Mathlib.Algebra.Ring.Nat
import MultipassWebui.Text.Strings

/-!
# Integers in texts

`to_i` reads a formatted integer back, whatever unit follows it.
-/

namespace MultipassWebui.Text

/-- What follows does not go on with the number. -/
def EndsNumber (rest : List Char) : Prop :=
  ∀ char ∈ rest.head?, isDigit char = false ∧ char ≠ '_' ∧ char ≠ 'd' ∧ char ≠ 'D'

instance : (rest : List Char) → Decidable (EndsNumber rest)
  | [] => isTrue nofun
  | char :: _ =>
      decidable_of_iff (isDigit char = false ∧ char ≠ '_' ∧ char ≠ 'd' ∧ char ≠ 'D')
        (by simp [EndsNumber])

theorem readDigits_of_endsNumber {rest : List Char} (ends : EndsNumber rest) (value : Nat) :
    readDigits value rest = value := by
  cases rest with
  | nil => rfl
  | cons char others =>
      rcases ends char rfl with ⟨notDigit, notUnderscore, _⟩
      cases others with
      | nil => simp [readDigits, notDigit]
      | cons next others => simp [readDigits, notDigit, notUnderscore]

/-- Digits are read up to the end of the number. -/
theorem readDigits_append {digits rest : List Char}
    (areDigits : ∀ char ∈ digits, isDigit char = true) (ends : EndsNumber rest) (value : Nat) :
    readDigits value (digits ++ rest) = Nat.ofDigitChars 10 digits value := by
  induction digits generalizing value with
  | nil => exact readDigits_of_endsNumber ends value
  | cons digit others ih =>
      have isDigit := areDigits digit List.mem_cons_self
      have later := ih (fun char member => areDigits char (List.mem_cons_of_mem _ member))
        (value * 10 + digitValue digit)
      rw [Nat.ofDigitChars_cons, Nat.mul_comm, List.cons_append]
      change _ = Nat.ofDigitChars 10 others (value * 10 + digitValue digit)
      rw [← later]
      cases others ++ rest with
      | nil => simp [readDigits, isDigit]
      | cons next remaining => simp [readDigits, isDigit]

theorem ofDigitChars_lt {digits : List Char} (areDigits : ∀ char ∈ digits, isDigit char = true) :
    Nat.ofDigitChars 10 digits 0 < 10 ^ digits.length := by
  induction digits with
  | nil => simp
  | cons digit others ih =>
      have later := ih fun char member => areDigits char (List.mem_cons_of_mem _ member)
      have bound := (digit_char_eq (areDigits digit List.mem_cons_self)).1
      rw [Nat.ofDigitChars_cons, Nat.ofDigitChars_eq_ofDigitChars_zero, List.length_cons,
        Nat.pow_succ]
      have next : 10 ^ others.length * (digitValue digit + 1) ≤ 10 ^ others.length * 10 :=
        Nat.mul_le_mul_left _ bound
      rw [Nat.mul_add, Nat.mul_one] at next
      change 10 ^ others.length * (10 * 0 + digitValue digit) + _ < _
      rw [Nat.mul_zero, Nat.zero_add]
      omega

/-- Digits, all of them, are no base that a number could be read in. -/
theorem readMagnitude_append {digits rest : List Char} (nonempty : digits ≠ [])
    (areDigits : ∀ char ∈ digits, isDigit char = true) (ends : EndsNumber rest) :
    readMagnitude (digits ++ rest) = Nat.ofDigitChars 10 digits 0 := by
  have reads := readDigits_append areDigits ends 0
  cases digits with
  | nil => exact absurd rfl nonempty
  | cons first others =>
      have firstDigit := areDigits first List.mem_cons_self
      have second : ∀ char ∈ (others ++ rest).head?, char ≠ 'd' ∧ char ≠ 'D' := by
        intro char isHead
        cases others with
        | nil =>
            rcases ends char isHead with ⟨_, _, lower, upper⟩
            exact ⟨lower, upper⟩
        | cons next remaining =>
            obtain rfl := Option.some.inj isHead
            have nextDigit := areDigits next (List.mem_cons_of_mem _ List.mem_cons_self)
            constructor
            · rintro rfl
              exact absurd nextDigit (by decide)
            · rintro rfl
              exact absurd nextDigit (by decide)
      have notUnderscore : first ≠ '_' := by
        rintro rfl
        exact absurd firstDigit (by decide)
      unfold readMagnitude
      split
      · rename_i tail isZero
        have next : others ++ rest = 'd' :: tail := (List.cons.inj isZero).2
        exact absurd rfl (second 'd' (by rw [next]; rfl)).1
      · rename_i tail isZero
        have next : others ++ rest = 'D' :: tail := (List.cons.inj isZero).2
        exact absurd rfl (second 'D' (by rw [next]; rfl)).2
      · exact (if_neg fun isHead => notUnderscore (Option.some.inj isHead)).trans reads

/-- `to_i` reads digits up to the end of the number. -/
theorem toI_digits_append {digits rest : List Char} (nonempty : digits ≠ [])
    (areDigits : ∀ char ∈ digits, isDigit char = true) (ends : EndsNumber rest) :
    toI (digits ++ rest) = (Nat.ofDigitChars 10 digits 0 : Nat) := by
  have magnitudeRead := readMagnitude_append nonempty areDigits ends
  cases digits with
  | nil => exact absurd rfl nonempty
  | cons first others =>
      have isDigit : isDigit first = true := areDigits first List.mem_cons_self
      have notWhite := isWhite_of_isDigit isDigit
      unfold toI
      rw [List.cons_append,
        List.dropWhile_cons_of_neg (by rw [notWhite]; exact Bool.false_ne_true)]
      split
      · rename_i tail isMinus
        rw [(List.cons.inj isMinus).1] at isDigit
        exact absurd isDigit (by decide)
      · rename_i tail isPlus
        rw [(List.cons.inj isPlus).1] at isDigit
        exact absurd isDigit (by decide)
      · exact congrArg Int.ofNat magnitudeRead

/-- A formatted number has no leading zero that a base could be read after. -/
theorem readMagnitude_toDigits_append (value : Nat) {rest : List Char} (ends : EndsNumber rest) :
    readMagnitude (Nat.toDigits 10 value ++ rest) = value := by
  rw [readMagnitude_append Nat.toDigits_ne_nil (fun _ => toDigits_isDigit) ends,
    Nat.ofDigitChars_ten_toDigits]

/-- `to_i` reads a formatted integer back. -/
theorem toI_toString_append (value : Int) {rest : List Char} (ends : EndsNumber rest) :
    toI ((toString value).toList ++ rest) = value := by
  cases value with
  | ofNat magnitude =>
      have written : (toString (Int.ofNat magnitude)).toList = Nat.toDigits 10 magnitude :=
        Nat.toList_repr
      rw [written, toI_digits_append Nat.toDigits_ne_nil (fun _ => toDigits_isDigit) ends,
        Nat.ofDigitChars_ten_toDigits]
      rfl
  | negSucc magnitude =>
      have written : (toString (Int.negSucc magnitude)).toList =
          '-' :: Nat.toDigits 10 (magnitude + 1) := by
        change ("-" ++ Nat.repr (magnitude + 1)).toList = _
        rw [String.toList_append, Nat.toList_repr]
        rfl
      rw [written]
      change -(readMagnitude (Nat.toDigits 10 (magnitude + 1) ++ rest) : Int) = _
      rw [readMagnitude_toDigits_append (magnitude + 1) ends]
      rfl

theorem toI_toString (value : Int) : toI (toString value).toList = value := by
  have reads := @toI_toString_append value [] nofun
  rwa [List.append_nil] at reads

end MultipassWebui.Text
