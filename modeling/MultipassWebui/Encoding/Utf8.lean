import MultipassWebui.Text.Lines

/-!
# Lines of encoded text

The first line of a sequence of bytes, which is the encoding of the first line
of the text if the bytes encode one.
-/

namespace MultipassWebui.Encoding

open MultipassWebui.Text

/-- The text that the bytes encode, if they do. -/
def decodeUtf8 (bytes : List UInt8) : Option String := String.fromUTF8? bytes.toByteArray

/-- The first line that `gets` returns, with its end. -/
def gets : List UInt8 → Option (List UInt8)
  | [] => none
  | content => some (content.takeWhile (· ≠ 10) ++ (content.dropWhile (· ≠ 10)).take 1)

/-- The bytes encode a text. -/
def IsUtf8 (bytes : List UInt8) : Prop := (decodeUtf8 bytes).isSome = true

instance (bytes : List UInt8) : Decidable (IsUtf8 bytes) :=
  inferInstanceAs (Decidable ((decodeUtf8 bytes).isSome = true))

theorem decodeUtf8_flatMap (chars : List Char) :
    decodeUtf8 (chars.flatMap String.utf8EncodeChar) = some (String.ofList chars) := by
  have encoded : (chars.flatMap String.utf8EncodeChar).toByteArray = chars.utf8Encode := rfl
  rw [decodeUtf8, String.fromUTF8?, encoded, dif_pos ⟨chars, rfl⟩]
  rfl

/-- A byte 10 is the encoding of `'\n'` and stands in no other. -/
theorem newline_mem_utf8EncodeChar {char : Char}
    (member : (10 : UInt8) ∈ String.utf8EncodeChar char) : char = '\n' := by
  have isNat : ∀ n : Nat, (10 : UInt8) = UInt8.ofNat n → n % 256 = 10 := by
    intro n same
    have values := congrArg UInt8.toNat same
    simpa using values.symm
  unfold String.utf8EncodeChar at member
  simp only at member
  split_ifs at member with ascii two three
  · have value := isNat _ (List.mem_singleton.mp member)
    rw [← Char.toNat_inj]
    change char.val.toNat = 10
    omega
  · simp only [List.mem_cons, List.not_mem_nil, or_false] at member
    rcases member with same | same <;> have value := isNat _ same <;> omega
  · simp only [List.mem_cons, List.not_mem_nil, or_false] at member
    rcases member with same | same | same <;> have value := isNat _ same <;> omega
  · simp only [List.mem_cons, List.not_mem_nil, or_false] at member
    rcases member with same | same | same | same <;> have value := isNat _ same <;> omega

theorem utf8EncodeChar_newline : String.utf8EncodeChar '\n' = [10] := rfl

/-- The first line of the bytes is the encoding of the first line of the text. -/
theorem gets_flatMap {chars : List Char} (given : chars ≠ []) :
    ∃ ending : List Char, gets (chars.flatMap String.utf8EncodeChar) =
        some ((firstLine chars ++ ending).flatMap String.utf8EncodeChar) ∧
      ∀ char ∈ ending, char = '\n' := by
  have split : ∀ chars : List Char, ∃ ending : List Char,
      (chars.flatMap String.utf8EncodeChar).takeWhile (· ≠ 10) ++
        ((chars.flatMap String.utf8EncodeChar).dropWhile (· ≠ 10)).take 1 =
          (firstLine chars ++ ending).flatMap String.utf8EncodeChar ∧
        ∀ char ∈ ending, char = '\n' := by
    intro chars
    induction chars with
    | nil => exact ⟨[], rfl, nofun⟩
    | cons head rest ih =>
        by_cases isEnd : head = '\n'
        · refine ⟨['\n'], ?_, fun char member => List.mem_singleton.mp member⟩
          rw [isEnd, List.flatMap_cons, utf8EncodeChar_newline]
          rfl
        · have other : ∀ byte ∈ String.utf8EncodeChar head, decide (byte ≠ 10) = true := by
            intro byte member
            refine decide_eq_true ?_
            rintro rfl
            exact isEnd (newline_mem_utf8EncodeChar member)
          rcases ih with ⟨ending, same, ends⟩
          refine ⟨ending, ?_, ends⟩
          rw [List.flatMap_cons, List.takeWhile_append_of_pos other,
            List.dropWhile_append_of_pos other, List.append_assoc, same, firstLine_cons isEnd,
            List.cons_append, List.flatMap_cons]
  rcases split chars with ⟨ending, same, ends⟩
  refine ⟨ending, ?_, ends⟩
  rw [← same]
  cases chars with
  | nil => exact absurd rfl given
  | cons head rest =>
      rw [List.flatMap_cons]
      cases encoded : String.utf8EncodeChar head with
      | nil => exact absurd encoded String.utf8EncodeChar_ne_nil
      | cons byte others => rfl

theorem isUtf8_iff {bytes : List UInt8} :
    IsUtf8 bytes ↔ ∃ chars : List Char, bytes = chars.flatMap String.utf8EncodeChar := by
  constructor
  · intro isUtf8
    rw [IsUtf8, decodeUtf8, String.fromUTF8?] at isUtf8
    split at isUtf8
    · next valid =>
        rcases valid with ⟨chars, encoded⟩
        refine ⟨chars, ?_⟩
        exact List.toByteArray_inj.mp encoded
    · cases isUtf8
  · rintro ⟨chars, rfl⟩
    rw [IsUtf8, decodeUtf8_flatMap]
    rfl

/-- A line break at the end makes no difference. -/
theorem isUtf8_append_newline {bytes : List UInt8} : IsUtf8 (bytes ++ [10]) ↔ IsUtf8 bytes := by
  rw [isUtf8_iff, isUtf8_iff]
  constructor
  · rintro ⟨chars, encoded⟩
    rcases List.eq_nil_or_concat chars with rfl | ⟨before, last, rfl⟩
    · rw [List.flatMap_nil] at encoded
      cases List.append_ne_nil_of_right_ne_nil bytes (List.cons_ne_nil 10 []) encoded
    · have isBreak : last = '\n' := by
        apply newline_mem_utf8EncodeChar
        have lasts := congrArg List.getLast? encoded
        rw [List.getLast?_append, List.concat_eq_append, List.flatMap_append,
          List.flatMap_singleton, List.getLast?_append] at lasts
        cases final : (String.utf8EncodeChar last).getLast? with
        | none => exact absurd (List.getLast?_eq_none_iff.mp final) String.utf8EncodeChar_ne_nil
        | some byte =>
            rw [final] at lasts
            have same : 10 = byte := Option.some.inj lasts
            rw [same]
            exact List.mem_of_getLast? final
      rw [isBreak, List.concat_eq_append, List.flatMap_append, List.flatMap_singleton,
        utf8EncodeChar_newline] at encoded
      exact ⟨before, List.append_cancel_right encoded⟩
  · rintro ⟨chars, rfl⟩
    refine ⟨chars ++ ['\n'], ?_⟩
    rw [List.flatMap_append, List.flatMap_singleton, utf8EncodeChar_newline]

end MultipassWebui.Encoding
