import Mathlib.Data.List.DropRight
import Mathlib.Tactic.Common

/-!
# Strings of a scripting language

The string operations of Ruby that the development needs, on character lists:
blankness, splitting at a separator, the lenient reading of integers, and the
anchored patterns "one character of a class, then a bounded number of another".
The lenient reading is shown to invert two-digit formatting.
-/

namespace MultipassWebui.Text

/-- Characters of Unicode white space. -/
def isSpace (char : Char) : Bool :=
  let code := char.toNat
  (9 ≤ code && code ≤ 13) || code = 32 || code = 0x85 || code = 0xA0 || code = 0x1680 ||
    (0x2000 ≤ code && code ≤ 0x200A) || code = 0x2028 || code = 0x2029 || code = 0x202F ||
    code = 0x205F || code = 0x3000

/-- `blank?`: nothing but white space. -/
def blank (text : String) : Bool := text.toList.all isSpace

/-- `present?` of a value that may be absent. -/
def present : Option String → Bool
  | none => false
  | some text => !blank text

/-- The bytes of a text in UTF-8. -/
def utf8Bytes (text : String) : List UInt8 := text.toList.flatMap String.utf8EncodeChar

/-- `split(separator)`: trailing empty fields are dropped. -/
def split (separator : Char) (text : List Char) : List (List Char) :=
  (text.splitOn separator).rdropWhile List.isEmpty

/-- `\s`: the white space of ASCII. -/
def isWhite (char : Char) : Bool := (9 ≤ char.toNat && char.toNat ≤ 13) || char = ' '

/-- What `strip` takes away: white space and null characters. -/
def isStripped (char : Char) : Bool := char.toNat = 0 || isWhite char

/-- `strip` -/
def strip (text : String) : String :=
  String.ofList ((text.toList.dropWhile isStripped).rdropWhile isStripped)

theorem toList_strip (text : String) :
    (strip text).toList = (text.toList.dropWhile isStripped).rdropWhile isStripped := by
  rw [strip, String.toList_ofList]

/-- What stands between blanks is kept if it does not begin or end with one. -/
theorem toList_strip_of_blanks {before text after : List Char}
    (blankBefore : ∀ char ∈ before, isStripped char = true)
    (blankAfter : ∀ char ∈ after, isStripped char = true)
    (first : ∀ char ∈ text.head?, isStripped char = false)
    (last : ∀ char ∈ text.getLast?, isStripped char = false) (given : text ≠ []) :
    (strip (String.ofList (before ++ text ++ after))).toList = text := by
  have dropped : (before ++ text ++ after).dropWhile isStripped = text ++ after := by
    rw [List.append_assoc, List.dropWhile_append_of_pos blankBefore]
    cases text with
    | nil => exact absurd rfl given
    | cons head rest =>
        rw [List.cons_append, List.dropWhile_cons_of_neg]
        rw [first head rfl]
        exact Bool.false_ne_true
  rw [toList_strip, String.toList_ofList, dropped, List.rdropWhile, List.reverse_append,
    List.dropWhile_append_of_pos fun char member => blankAfter char (List.mem_reverse.mp member)]
  change text.rdropWhile isStripped = text
  rw [List.rdropWhile_eq_self_iff]
  intro nonempty isLast
  rw [last _ (List.getLast?_eq_some_getLast nonempty)] at isLast
  cases isLast

/-! ## Digits and integers -/

def isDigit (char : Char) : Bool := 48 ≤ char.toNat && char.toNat ≤ 57

/-- A digit is not white space. -/
theorem isWhite_of_isDigit {char : Char} (digit : isDigit char = true) :
    isWhite char = false := by
  simp only [isDigit, Bool.and_eq_true, decide_eq_true_eq] at digit
  have notSpace : char ≠ ' ' := by
    rintro rfl
    exact absurd digit.1 (by decide)
  simp only [isWhite, notSpace, decide_false, Bool.or_false, Bool.and_eq_false_iff,
    decide_eq_false_iff_not]
  omega

theorem not_isStripped_of_isDigit {char : Char} (digit : isDigit char = true) :
    isStripped char = false := by
  rw [isStripped, isWhite_of_isDigit digit, Bool.or_false, decide_eq_false_iff_not]
  simp only [isDigit, Bool.and_eq_true, decide_eq_true_eq] at digit
  omega

def digitValue (char : Char) : Nat := char.toNat - 48

/-- Read digits, single underscores between digits included, up to the first
character that is neither. -/
def readDigits (value : Nat) : List Char → Nat
  | [] => value
  | [char] => if isDigit char then value * 10 + digitValue char else value
  | char :: next :: rest =>
      if isDigit char then readDigits (value * 10 + digitValue char) (next :: rest)
      else if char = '_' ∧ isDigit next then readDigits (value * 10 + digitValue next) rest
      else value

/-- The magnitude of `to_i`, after blanks and sign. -/
def readMagnitude (text : List Char) : Nat :=
  match text with
  | '0' :: 'd' :: rest | '0' :: 'D' :: rest | rest =>
      if rest.head? = some '_' then 0 else readDigits 0 rest

/-- `to_i`: zero on text that does not begin with an integer. -/
def toI (text : List Char) : Int :=
  match text.dropWhile isWhite with
  | '-' :: rest => -(readMagnitude rest : Int)
  | '+' :: rest => readMagnitude rest
  | rest => readMagnitude rest

/-- A number below 100 with two digits. -/
def twoDigits (value : Nat) : List Char :=
  [Char.ofNat (48 + value / 10), Char.ofNat (48 + value % 10)]

theorem digit_char_eq {char : Char} (digit : isDigit char = true) :
    digitValue char < 10 ∧ char = Char.ofNat (48 + digitValue char) := by
  simp only [isDigit, Bool.and_eq_true, decide_eq_true_eq] at digit
  constructor
  · simp only [digitValue]
    omega
  · rw [digitValue, Nat.add_sub_cancel' digit.1]
    exact (Char.ofNat_toNat char).symm

theorem toDigits_isDigit {value : Nat} {char : Char} (member : char ∈ Nat.toDigits 10 value) :
    isDigit char = true := by
  have digit := Nat.isDigit_of_mem_toDigits (by decide) (by decide) member
  simp only [Char.isDigit, Bool.and_eq_true, decide_eq_true_eq, UInt32.le_iff_toNat_le] at digit
  rw [isDigit, Bool.and_eq_true, decide_eq_true_eq, decide_eq_true_eq]
  exact digit

/-- Every pair of digits is the two-digit form of a number, and `to_i` reads it. -/
theorem toI_pair {tens ones : Char} (tensDigit : isDigit tens = true)
    (onesDigit : isDigit ones = true) :
    toI [tens, ones] = (digitValue tens * 10 + digitValue ones : Nat) := by
  obtain ⟨tensBound, tensEq⟩ := digit_char_eq tensDigit
  obtain ⟨onesBound, onesEq⟩ := digit_char_eq onesDigit
  have table : ∀ t o : Fin 10,
      toI [Char.ofNat (48 + t), Char.ofNat (48 + o)] = (t.val * 10 + o.val : Nat) := by decide
  have entry := table ⟨_, tensBound⟩ ⟨_, onesBound⟩
  simp only [← tensEq, ← onesEq] at entry
  exact entry

theorem twoDigits_injective {m n : Nat} (mBound : m < 100) (nBound : n < 100)
    (equal : twoDigits m = twoDigits n) : m = n := by
  have table : ∀ a b : Fin 10, Char.ofNat (48 + a) = Char.ofNat (48 + b) → a.val = b.val := by
    decide
  simp only [twoDigits, List.cons.injEq, and_true] at equal
  have tens := table ⟨m / 10, by omega⟩ ⟨n / 10, by omega⟩ equal.1
  have ones := table ⟨m % 10, by omega⟩ ⟨n % 10, by omega⟩ equal.2
  simp only at tens ones
  omega

theorem pair_eq_twoDigits {tens ones : Char} (tensDigit : isDigit tens = true)
    (onesDigit : isDigit ones = true) :
    [tens, ones] = twoDigits (digitValue tens * 10 + digitValue ones) := by
  obtain ⟨tensBound, tensEq⟩ := digit_char_eq tensDigit
  obtain ⟨onesBound, onesEq⟩ := digit_char_eq onesDigit
  have quotient : (digitValue tens * 10 + digitValue ones) / 10 = digitValue tens := by omega
  have remainder : (digitValue tens * 10 + digitValue ones) % 10 = digitValue ones := by omega
  rw [twoDigits, quotient, remainder, ← tensEq, ← onesEq]

/-- A pair of digits reads as `n` precisely if it is the two-digit form of `n`. -/
theorem toI_pair_eq_iff {tens ones : Char} {n : Nat} (tensDigit : isDigit tens = true)
    (onesDigit : isDigit ones = true) (bound : n < 100) :
    toI [tens, ones] = n ↔ [tens, ones] = twoDigits n := by
  have tensBound := (digit_char_eq tensDigit).1
  have onesBound := (digit_char_eq onesDigit).1
  rw [toI_pair tensDigit onesDigit, pair_eq_twoDigits tensDigit onesDigit, Int.natCast_inj]
  constructor
  · intro equal
    rw [equal]
  · intro equal
    exact twoDigits_injective (by omega) bound equal

/-! ## Anchored patterns -/

def isAlnum (char : Char) : Bool :=
  isDigit char || (65 ≤ char.toNat && char.toNat ≤ 90) || (97 ≤ char.toNat && char.toNat ≤ 122)

/-- The pattern `\A[head][tail]{0,limit}\z`. -/
def matchesLeading (head tail : Char → Bool) (limit : Nat) (text : String) : Bool :=
  match text.toList with
  | [] => false
  | first :: rest => head first && rest.all tail && rest.length ≤ limit

/-- The pattern `\A[0-2][0-9]:[0-5][0-9]\z`. -/
def matchesClock (text : String) : Bool :=
  match text.toList with
  | [hourTens, hourOnes, colon, minuteTens, minuteOnes] =>
      isDigit hourTens && digitValue hourTens ≤ 2 && isDigit hourOnes && colon = ':' &&
        isDigit minuteTens && digitValue minuteTens ≤ 5 && isDigit minuteOnes
  | _ => false

theorem matchesClock_iff (text : String) :
    matchesClock text = true ↔
      ∃ hourTens hourOnes minuteTens minuteOnes,
        text.toList = [hourTens, hourOnes, ':', minuteTens, minuteOnes] ∧
          isDigit hourTens = true ∧ digitValue hourTens ≤ 2 ∧ isDigit hourOnes = true ∧
          isDigit minuteTens = true ∧ digitValue minuteTens ≤ 5 ∧ isDigit minuteOnes = true := by
  unfold matchesClock
  constructor
  · intro matched
    split at matched
    · rename_i hourTens hourOnes colon minuteTens minuteOnes shape
      simp only [Bool.and_eq_true, decide_eq_true_eq] at matched
      obtain ⟨⟨⟨⟨⟨⟨first, firstLow⟩, second⟩, rfl⟩, third⟩, thirdLow⟩, fourth⟩ := matched
      exact ⟨_, _, _, _, shape, first, firstLow, second, third, thirdLow, fourth⟩
    · contradiction
  · rintro ⟨hourTens, hourOnes, minuteTens, minuteOnes, shape, first, firstLow, second, third,
      thirdLow, fourth⟩
    rw [shape]
    simp [first, firstLow, second, third, thirdLow, fourth]

/-- Splitting clock text at the colon yields its two digit pairs. -/
theorem split_clock {hourTens hourOnes minuteTens minuteOnes : Char}
    (first : isDigit hourTens = true) (second : isDigit hourOnes = true)
    (third : isDigit minuteTens = true) (fourth : isDigit minuteOnes = true) :
    split ':' [hourTens, hourOnes, ':', minuteTens, minuteOnes] =
      [[hourTens, hourOnes], [minuteTens, minuteOnes]] := by
  have notColon : ∀ char, isDigit char = true → (char == ':') = false := by
    intro char digit
    rw [beq_eq_false_iff_ne]
    rintro rfl
    exact absurd digit (by decide)
  simp [split, List.splitOn_eq_splitOnP, List.splitOnP_cons_eq_if_modifyHead, notColon _ first,
    notColon _ second, notColon _ third, notColon _ fourth, List.rdropWhile]

end MultipassWebui.Text
