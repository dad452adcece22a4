import MultipassWebui.Text.Strings

/-!
# Words of a line

`split` without an argument, and the lines that are made of given words: how
many blanks stand between them, before the first and after the last makes no
difference.
-/

namespace MultipassWebui.Text

/-- `split` -/
def words (line : List Char) : List (List Char) :=
  (line.splitOnP isWhite).filter fun word => !word.isEmpty

/-- The words on the two sides of a blank. -/
theorem words_append_cons (first rest : List Char) {blank : Char}
    (isBlank : isWhite blank = true) :
    words (first ++ blank :: rest) = words first ++ words rest := by
  rw [words, List.splitOnP_append_cons first rest isBlank, List.filter_append]
  rfl

theorem words_cons (rest : List Char) {blank : Char} (isBlank : isWhite blank = true) :
    words (blank :: rest) = words rest :=
  words_append_cons [] rest isBlank

theorem words_blanks_append {blanks : List Char} (rest : List Char)
    (areBlank : ∀ char ∈ blanks, isWhite char = true) : words (blanks ++ rest) = words rest := by
  induction blanks with
  | nil => rfl
  | cons blank others ih =>
      rw [List.cons_append, words_cons _ (areBlank blank List.mem_cons_self)]
      exact ih fun char member => areBlank char (List.mem_cons_of_mem _ member)

theorem words_append_blanks (first : List Char) {blanks : List Char}
    (areBlank : ∀ char ∈ blanks, isWhite char = true) :
    words (first ++ blanks) = words first := by
  cases blanks with
  | nil => rw [List.append_nil]
  | cons blank others =>
      have rest := words_blanks_append [] fun char member =>
        areBlank char (List.mem_cons_of_mem _ member)
      rw [List.append_nil] at rest
      rw [words_append_cons _ _ (areBlank blank List.mem_cons_self), rest]
      exact List.append_nil _

/-- A word: not empty, and without a blank. -/
structure IsWord (word : List Char) : Prop where
  nonempty : word ≠ []
  solid : ∀ char ∈ word, isWhite char = false

instance decidableIsWord (word : List Char) : Decidable (IsWord word) :=
  decidable_of_iff (word ≠ [] ∧ word.all (fun char => !isWhite char) = true)
    ⟨fun ⟨nonempty, solid⟩ => ⟨nonempty, by simpa using solid⟩,
      fun isWord => ⟨isWord.nonempty, by simpa using isWord.solid⟩⟩

theorem IsWord.words {word : List Char} (isWord : IsWord word) : Text.words word = [word] := by
  rw [Text.words, List.splitOnP_eq_singleton isWord.solid]
  simp [isWord.nonempty]

/-- A word is over where a blank follows, or nothing. -/
theorem IsWord.words_append {word rest : List Char} (isWord : IsWord word)
    (ends : ∀ char ∈ rest.head?, isWhite char = true) :
    Text.words (word ++ rest) = word :: Text.words rest := by
  cases rest with
  | nil =>
      rw [List.append_nil, isWord.words]
      rfl
  | cons blank others =>
      have isBlank := ends blank rfl
      rw [words_append_cons _ _ isBlank, words_cons _ isBlank, isWord.words]
      rfl

/-- Words, each with the blanks in front of it. -/
def spaced (cells : List (List Char × List Char)) : List Char :=
  cells.flatMap fun cell => cell.1 ++ cell.2

/-- The blanks are blank, they are there from the second word on, and the words are words. -/
structure AreCells (cells : List (List Char × List Char)) : Prop where
  blank : ∀ cell ∈ cells, ∀ char ∈ cell.1, isWhite char = true
  apart : ∀ cell ∈ cells.tail, cell.1 ≠ []
  word : ∀ cell ∈ cells, IsWord cell.2

instance decidableAreCells (cells : List (List Char × List Char)) : Decidable (AreCells cells) :=
  decidable_of_iff ((∀ cell ∈ cells, cell.1.all isWhite = true) ∧
      (∀ cell ∈ cells.tail, cell.1 ≠ []) ∧ ∀ cell ∈ cells, IsWord cell.2)
    ⟨fun ⟨blank, apart, word⟩ =>
      ⟨fun cell member => List.all_eq_true.mp (blank cell member), apart, word⟩,
      fun areCells =>
        ⟨fun cell member => List.all_eq_true.mpr (areCells.blank cell member),
          areCells.apart, areCells.word⟩⟩

theorem AreCells.tail {cell : List Char × List Char} {cells : List (List Char × List Char)}
    (areCells : AreCells (cell :: cells)) : AreCells cells where
  blank other member := areCells.blank other (List.mem_cons_of_mem _ member)
  apart other member := areCells.apart other (List.mem_of_mem_tail member)
  word other member := areCells.word other (List.mem_cons_of_mem _ member)

/-- The words of a line are those that it is made of. -/
theorem words_spaced {cells : List (List Char × List Char)} (areCells : AreCells cells) :
    words (spaced cells) = cells.map Prod.snd := by
  induction cells with
  | nil => rfl
  | cons cell others ih =>
      have later := ih areCells.tail
      have isWord := areCells.word cell List.mem_cons_self
      have front : words (spaced (cell :: others)) = words (cell.2 ++ spaced others) := by
        rw [spaced, List.flatMap_cons, List.append_assoc]
        exact words_blanks_append _ (areCells.blank cell List.mem_cons_self)
      rw [front, List.map_cons, ← later]
      apply isWord.words_append
      cases others with
      | nil =>
          intro char isHead
          cases isHead
      | cons next rest =>
          have isBlank := areCells.blank next (List.mem_cons_of_mem _ List.mem_cons_self)
          rcases List.exists_cons_of_ne_nil (areCells.apart next List.mem_cons_self) with
            ⟨blank, blanks, gap⟩
          intro char isHead
          apply isBlank
          rw [spaced, List.flatMap_cons, gap] at isHead
          rw [gap, ← Option.some.inj isHead]
          exact List.mem_cons_self

/-- A line that is made of words, and of blanks between, before and after them. -/
def HasWords (line : List Char) (given : List (List Char)) : Prop :=
  ∃ cells blanks, AreCells cells ∧ (∀ char ∈ blanks, isWhite char = true) ∧
    line = spaced cells ++ blanks ∧ cells.map Prod.snd = given

theorem HasWords.words {line : List Char} {given : List (List Char)}
    (hasWords : HasWords line given) : Text.words line = given := by
  rcases hasWords with ⟨cells, blanks, areCells, areBlank, rfl, rfl⟩
  rw [words_append_blanks _ areBlank, words_spaced areCells]

end MultipassWebui.Text
