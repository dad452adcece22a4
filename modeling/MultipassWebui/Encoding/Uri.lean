import MultipassWebui.Encoding.Utf8

/-!
# Percent escapes

A text is written as a segment of a path: the characters that may stand there
are kept, and the bytes of the others are escaped.  Which characters those are is
a parameter; the percent sign is none of them.
-/

namespace MultipassWebui.Encoding.Uri

/-- The upper-case digit of a value below sixteen. -/
def hexDigit (value : Nat) : Char :=
  if value < 10 then Char.ofNat (48 + value) else Char.ofNat (55 + value)

/-- The value of a digit in either case. -/
def hexValue (char : Char) : Option Nat :=
  let code := char.toNat
  if 48 ≤ code ∧ code ≤ 57 then some (code - 48)
  else if 65 ≤ code ∧ code ≤ 70 then some (code - 55)
  else if 97 ≤ code ∧ code ≤ 102 then some (code - 87)
  else none

def escapeByte (byte : UInt8) : List Char :=
  ['%', hexDigit (byte.toNat / 16), hexDigit (byte.toNat % 16)]

section

variable (plain : Char → Bool)

def escapeChar (char : Char) : List Char :=
  if plain char then [char] else (String.utf8EncodeChar char).flatMap escapeByte

/-- Escape every character that is not plain. -/
def escape (chars : List Char) : List Char := chars.flatMap (escapeChar plain)

end

/-- The bytes of a text in which escapes stand for bytes. -/
def unescape : List Char → List UInt8
  | '%' :: high :: low :: rest =>
      match hexValue high, hexValue low with
      | some first, some second => UInt8.ofNat (16 * first + second) :: unescape rest
      | _, _ => String.utf8EncodeChar '%' ++ unescape (high :: low :: rest)
  | char :: rest => String.utf8EncodeChar char ++ unescape rest
  | [] => []

/-! ## Reading back -/

/-- The digits are none of the characters with a meaning. -/
theorem hexDigit_spec {value : Nat} (small : value < 16) :
    hexValue (hexDigit value) = some value ∧ hexDigit value ≠ '%' ∧ hexDigit value ≠ '/' ∧
      hexDigit value ≠ '.' ∧ hexDigit value ≠ '?' := by
  have table : ∀ value : Fin 16, hexValue (hexDigit value) = some value.val ∧
      hexDigit value ≠ '%' ∧ hexDigit value ≠ '/' ∧ hexDigit value ≠ '.' ∧
      hexDigit value ≠ '?' := by decide
  exact table ⟨value, small⟩

theorem unescape_escapeByte_append (byte : UInt8) (rest : List Char) :
    unescape (escapeByte byte ++ rest) = byte :: unescape rest := by
  have bound := byte.toNat_lt
  have high := (hexDigit_spec (show byte.toNat / 16 < 16 by omega)).1
  have low := (hexDigit_spec (show byte.toNat % 16 < 16 by omega)).1
  have value : 16 * (byte.toNat / 16) + byte.toNat % 16 = byte.toNat := Nat.div_add_mod _ _
  simp only [escapeByte, List.cons_append, List.nil_append, unescape, high, low, value,
    UInt8.ofNat_toNat]

theorem unescape_flatMap_append (bytes : List UInt8) (rest : List Char) :
    unescape (bytes.flatMap escapeByte ++ rest) = bytes ++ unescape rest := by
  induction bytes with
  | nil => rfl
  | cons byte bytes ih =>
      rw [List.flatMap_cons, List.append_assoc, unescape_escapeByte_append, ih, List.cons_append]

/-- What is not a percent sign stands for itself. -/
theorem unescape_cons {char : Char} (notPercent : char ≠ '%') (rest : List Char) :
    unescape (char :: rest) = String.utf8EncodeChar char ++ unescape rest := by
  rw [unescape.eq_2]
  intro high low others isPercent
  exact absurd isPercent notPercent

variable {plain : Char → Bool}

theorem unescape_escapeChar_append (percent : plain '%' = false) (char : Char)
    (rest : List Char) :
    unescape (escapeChar plain char ++ rest) = String.utf8EncodeChar char ++ unescape rest := by
  unfold escapeChar
  split
  · rename_i isPlain
    refine unescape_cons ?_ rest
    rintro rfl
    rw [percent] at isPlain
    cases isPlain
  · exact unescape_flatMap_append _ rest

/-- Unescaping gives the bytes of the text back. -/
theorem unescape_escape (percent : plain '%' = false) (chars : List Char) :
    unescape (escape plain chars) = chars.flatMap String.utf8EncodeChar := by
  induction chars with
  | nil => rfl
  | cons char rest ih =>
      change unescape (escapeChar plain char ++ escape plain rest) = _
      rw [unescape_escapeChar_append percent, ih, List.flatMap_cons]

theorem decode_unescape_escape (percent : plain '%' = false) (chars : List Char) :
    decodeUtf8 (unescape (escape plain chars)) = some (String.ofList chars) := by
  rw [unescape_escape percent, decodeUtf8_flatMap]

theorem escape_injective (percent : plain '%' = false) {first second : List Char}
    (same : escape plain first = escape plain second) : first = second := by
  have decoded := congrArg (fun escaped => decodeUtf8 (unescape escaped)) same
  simp only [decode_unescape_escape percent, Option.some.injEq] at decoded
  exact String.ofList_injective decoded

/-! ## The characters of an escaped text -/

/-- A character of an escape, or one that is plain. -/
theorem mem_escapeChar {char other : Char} (member : other ∈ escapeChar plain char) :
    (other = char ∧ plain char = true) ∨
      other = '%' ∨ ∃ value < 16, other = hexDigit value := by
  unfold escapeChar at member
  split at member
  · rename_i isPlain
    exact Or.inl ⟨List.mem_singleton.mp member, isPlain⟩
  · right
    rcases List.mem_flatMap.mp member with ⟨byte, _, inByte⟩
    have bound := byte.toNat_lt
    simp only [escapeByte, List.mem_cons, List.not_mem_nil, or_false] at inByte
    rcases inByte with isPercent | isHigh | isLow
    · exact Or.inl isPercent
    · exact Or.inr ⟨_, by omega, isHigh⟩
    · exact Or.inr ⟨_, by omega, isLow⟩

/-- A separator is in the escaped text if it is plain and in the text. -/
theorem mem_escape_iff {separator : Char}
    (special : separator ≠ '%' ∧ ∀ value < 16, separator ≠ hexDigit value) {chars : List Char} :
    separator ∈ escape plain chars ↔ separator ∈ chars ∧ plain separator = true := by
  constructor
  · intro member
    rcases List.mem_flatMap.mp member with ⟨char, inChars, inEscape⟩
    rcases mem_escapeChar inEscape with ⟨rfl, isPlain⟩ | isPercent | ⟨value, small, isDigit⟩
    · exact ⟨inChars, isPlain⟩
    · exact absurd isPercent special.1
    · exact absurd isDigit (special.2 value small)
  · rintro ⟨member, isPlain⟩
    refine List.mem_flatMap.mpr ⟨separator, member, ?_⟩
    rw [escapeChar, if_pos isPlain]
    exact List.mem_singleton.mpr rfl

/-- A text is cut at a plain separator before or after it is escaped. -/
theorem takeWhile_escape {separator : Char}
    (special : separator ≠ '%' ∧ ∀ value < 16, separator ≠ hexDigit value)
    (isPlain : plain separator = true) (chars : List Char) :
    (escape plain chars).takeWhile (· ≠ separator) =
      escape plain (chars.takeWhile (· ≠ separator)) := by
  induction chars with
  | nil => rfl
  | cons char rest ih =>
      change (escapeChar plain char ++ escape plain rest).takeWhile _ = _
      by_cases same : char = separator
      · rw [same, escapeChar, if_pos isPlain]
        simp [escape]
      · have others : ∀ other ∈ escapeChar plain char, decide (other ≠ separator) = true := by
          intro other member
          refine decide_eq_true ?_
          rintro rfl
          rcases mem_escapeChar member with ⟨isChar, _⟩ | isPercent | ⟨value, small, isDigit⟩
          · exact same isChar.symm
          · exact special.1 isPercent
          · exact special.2 value small isDigit
        rw [List.takeWhile_append_of_pos others, ih,
            List.takeWhile_cons_of_pos (by simpa using same)]
        rfl

theorem escape_ne_nil {chars : List Char} (given : chars ≠ []) : escape plain chars ≠ [] := by
  intro empty
  cases chars with
  | nil => exact given rfl
  | cons char rest =>
      have nothing : escapeChar plain char = [] := (List.append_eq_nil_iff.mp empty).1
      unfold escapeChar at nothing
      split at nothing
      · cases nothing
      · cases encoded : String.utf8EncodeChar char with
        | nil => exact absurd encoded String.utf8EncodeChar_ne_nil
        | cons byte bytes =>
            rw [encoded] at nothing
            cases nothing

end MultipassWebui.Encoding.Uri
