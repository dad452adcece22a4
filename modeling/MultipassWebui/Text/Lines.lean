import MultipassWebui.Text.Strings

/-!
# The first line of a text

A text that is stripped first and one that is not have the same first line up
to the blanks around it, unless the text begins with an empty line.
-/

namespace MultipassWebui.Text

/-- What stands before the first `'\n'`. -/
def firstLine (chars : List Char) : List Char := chars.takeWhile (· ≠ '\n')

theorem firstLine_cons {head : Char} (inLine : head ≠ '\n') (rest : List Char) :
    firstLine (head :: rest) = head :: firstLine rest :=
  List.takeWhile_cons_of_pos (decide_eq_true inLine)

theorem firstLine_append {before : List Char} (noEnd : '\n' ∉ before) (after : List Char) :
    firstLine (before ++ after) = before ++ firstLine after := by
  refine List.takeWhile_append_of_pos fun char member => decide_eq_true ?_
  rintro rfl
  exact noEnd member

/-- The first line is within the part that has an end of line. -/
theorem firstLine_append_of_mem {before : List Char} (ends : '\n' ∈ before) (after : List Char) :
    firstLine (before ++ after) = firstLine before := by
  induction before with
  | nil => cases ends
  | cons head rest ih =>
      by_cases isEnd : head = '\n'
      · rw [isEnd, List.cons_append]
        rfl
      · have later : '\n' ∈ rest := by
          rcases List.mem_cons.mp ends with same | later
          · exact absurd same.symm isEnd
          · exact later
        rw [List.cons_append, firstLine_cons isEnd, firstLine_cons isEnd, ih later]

/-- `strip`, on characters. -/
def stripChars (chars : List Char) : List Char := (chars.dropWhile isStripped).rdropWhile isStripped

/-- What is taken off the end stops at a character that is kept. -/
theorem rdropWhile_append_cons {char : Char} (kept : isStripped char = false)
    (before after : List Char) :
    (before ++ char :: after).rdropWhile isStripped =
      before ++ char :: after.rdropWhile isStripped := by
  have reversed : (before ++ char :: after).reverse =
      after.reverse ++ char :: before.reverse := by simp
  have stops : (char :: before.reverse).dropWhile isStripped = char :: before.reverse :=
    List.dropWhile_cons_of_neg (by rw [kept]; exact Bool.false_ne_true)
  have dropped : (after.reverse ++ char :: before.reverse).dropWhile isStripped =
      after.reverse.dropWhile isStripped ++ char :: before.reverse := by
    rw [List.dropWhile_append]
    split
    · next empty => rw [List.isEmpty_iff.mp empty, stops, List.nil_append]
    · rfl
  rw [List.rdropWhile, reversed, dropped, List.reverse_append, List.rdropWhile]
  simp

theorem strip_ofList (chars : List Char) :
    strip (String.ofList chars) = String.ofList (stripChars chars) := by
  rw [← String.toList_inj, toList_strip, String.toList_ofList, String.toList_ofList, stripChars]

theorem stripChars_of_blank {chars : List Char} (blank : ∀ char ∈ chars, isStripped char = true) :
    stripChars chars = [] := by
  rw [stripChars, List.dropWhile_eq_nil_iff.mpr blank]
  rfl

theorem stripChars_append_blank (chars : List Char) {after : List Char}
    (blank : ∀ char ∈ after, isStripped char = true) :
    stripChars (chars ++ after) = stripChars chars := by
  by_cases allBlank : ∀ char ∈ chars, isStripped char = true
  · rw [stripChars_of_blank allBlank, stripChars_of_blank]
    intro char member
    exact (List.mem_append.mp member).elim (allBlank char) (blank char)
  · have dropped : (chars ++ after).dropWhile isStripped =
        chars.dropWhile isStripped ++ after := by
      rw [List.dropWhile_append, if_neg]
      rw [List.isEmpty_iff, List.dropWhile_eq_nil_iff]
      exact allBlank
    rw [stripChars, dropped, List.rdropWhile, List.reverse_append,
      List.dropWhile_append_of_pos fun char member => blank char (List.mem_reverse.mp member)]
    rfl

theorem stripChars_blank_append {before : List Char} (chars : List Char)
    (blank : ∀ char ∈ before, isStripped char = true) :
    stripChars (before ++ chars) = stripChars chars := by
  rw [stripChars, List.dropWhile_append_of_pos blank]
  rfl

/-- What is stripped away at the end is blank. -/
theorem exists_stripped_end (chars : List Char) :
    ∃ after, chars.dropWhile isStripped = stripChars chars ++ after ∧
      ∀ char ∈ after, isStripped char = true := by
  refine ⟨(chars.dropWhile isStripped).rtakeWhile isStripped, ?_, ?_⟩
  · exact List.rdropWhile_append_rtakeWhile.symm
  · intro char member
    exact List.mem_rtakeWhile_imp member

/-- A stripped text has nothing to strip. -/
theorem stripChars_stripChars (chars : List Char) :
    stripChars (stripChars chars) = stripChars chars := by
  rcases exists_stripped_end chars with ⟨after, shape, blank⟩
  have parts : chars.takeWhile isStripped ++ chars.dropWhile isStripped = chars :=
    List.takeWhile_append_dropWhile
  conv_rhs => rw [← parts]
  rw [stripChars_blank_append _ fun char => List.mem_takeWhile_imp, shape,
    stripChars_append_blank _ blank]

theorem strip_strip (text : String) : strip (strip text) = strip text := by
  rw [← @String.ofList_toList text, strip_ofList, strip_ofList, stripChars_stripChars]

/-- The blanks that a text begins with. -/
def leading (chars : List Char) : List Char := chars.takeWhile isStripped

theorem isStripped_of_mem_leading {chars : List Char} {char : Char}
    (member : char ∈ leading chars) : isStripped char = true :=
  List.mem_takeWhile_imp member

/-- A text that begins with an empty line has a blank first line. -/
theorem stripChars_firstLine_of_emptyLine {chars : List Char} (ends : '\n' ∈ leading chars) :
    stripChars (firstLine chars) = [] := by
  have parts : leading chars ++ chars.dropWhile isStripped = chars :=
    List.takeWhile_append_dropWhile
  rw [← parts, firstLine_append_of_mem ends]
  refine stripChars_of_blank fun char member => ?_
  exact isStripped_of_mem_leading (List.takeWhile_subset _ member)

/-- Otherwise the first line is the one of the stripped text. -/
theorem stripChars_firstLine {chars : List Char} (noEnd : '\n' ∉ leading chars) :
    stripChars (firstLine chars) = stripChars (firstLine (stripChars chars)) := by
  have parts : leading chars ++ chars.dropWhile isStripped = chars :=
    List.takeWhile_append_dropWhile
  rcases exists_stripped_end chars with ⟨after, shape, blank⟩
  have line : firstLine chars = leading chars ++ firstLine (chars.dropWhile isStripped) := by
    conv_lhs => rw [← parts]
    exact firstLine_append noEnd _
  rw [line, stripChars_blank_append _ fun char => isStripped_of_mem_leading, shape]
  by_cases ends : '\n' ∈ stripChars chars
  · rw [firstLine_append_of_mem ends]
  · have whole : firstLine (stripChars chars) = stripChars chars := by
      have appended := firstLine_append ends []
      rw [List.append_nil] at appended
      rw [appended]
      exact List.append_nil _
    rw [firstLine_append ends, whole, stripChars_append_blank]
    exact fun char member => blank char (List.takeWhile_subset _ member)

end MultipassWebui.Text
