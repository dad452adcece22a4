import MultipassWebui.Text.Lines
import MultipassWebui.Text.Words

/-!
# Labelled lines

Texts of lines that each have a label, a colon and a value.  A reader that goes
through the lines and keeps the value of a label ends up with the value that
the label has, wherever its line stands.
-/

namespace MultipassWebui.Text

universe u v

/-- A line with a label. -/
def entryLine (entry : List Char × List Char) : List Char := entry.1 ++ ':' :: entry.2

/-- The text of the lines. -/
def entriesText (entries : List (List Char × List Char)) : List Char :=
  entries.flatMap fun entry => entryLine entry ++ ['\n']

/-- The labels have no colon and are different, and every entry is one line. -/
structure AreEntries (entries : List (List Char × List Char)) : Prop where
  label : ∀ entry ∈ entries, ':' ∉ entry.1
  line : ∀ entry ∈ entries, '\n' ∉ entryLine entry
  distinct : (entries.map Prod.fst).Nodup

instance decidableAreEntries (entries : List (List Char × List Char)) :
    Decidable (AreEntries entries) :=
  decidable_of_iff ((∀ entry ∈ entries, ':' ∉ entry.1) ∧
      (∀ entry ∈ entries, '\n' ∉ entryLine entry) ∧ (entries.map Prod.fst).Nodup)
    ⟨fun ⟨label, line, distinct⟩ => ⟨label, line, distinct⟩,
      fun areEntries => ⟨areEntries.label, areEntries.line, areEntries.distinct⟩⟩

section

variable {entries : List (List Char × List Char)} {entry : List Char × List Char}

/-- A line begins with a label and a colon precisely if the label is its own. -/
theorem isPrefixOf_entryLine {label : List Char} (plain : ':' ∉ label) (own : ':' ∉ entry.1) :
    (label ++ [':']).isPrefixOf (entryLine entry) = true ↔ entry.1 = label := by
  have upTo : ∀ {first : List Char}, ':' ∉ first → ∀ rest,
      (first ++ ':' :: rest).takeWhile (· ≠ ':') = first := by
    intro first noColon rest
    rw [List.takeWhile_append_of_pos]
    · simp
    · intro char member
      exact decide_eq_true fun same => noColon (same ▸ member)
  rw [List.isPrefixOf_iff_prefix]
  constructor
  · rintro ⟨rest, same⟩
    have first := upTo own entry.2
    rw [entryLine] at same
    rw [← same, List.append_assoc, List.singleton_append, upTo plain rest] at first
    exact first.symm
  · rintro rfl
    exact ⟨entry.2, by simp [entryLine]⟩

/-- The lines of a text, and nothing after the last of them. -/
theorem splitOn_entriesText (areEntries : ∀ entry ∈ entries, '\n' ∉ entryLine entry) :
    (entriesText entries).splitOn '\n' = entries.map entryLine ++ [[]] := by
  induction entries with
  | nil => simp [entriesText]
  | cons first rest ih =>
      have later := ih fun entry member => areEntries entry (List.mem_cons_of_mem _ member)
      have begins : entriesText (first :: rest) = entryLine first ++ '\n' :: entriesText rest := by
        simp [entriesText]
      rw [begins, List.splitOn_append_cons_self,
        List.splitOn_eq_singleton (areEntries first List.mem_cons_self), later]
      rfl

end

section

variable {σ : Type u} {β : Type v} {entries : List (List Char × List Char)} {label : List Char}
  {step : σ → List Char → σ} {register : σ → β} {value : List Char → β}

/-- A label that is not there leaves the register as it was. -/
theorem foldl_register_of_absent
    (reads : ∀ state, ∀ entry ∈ entries, register (step state (entryLine entry)) =
      if entry.1 = label then value entry.2 else register state)
    (absent : label ∉ entries.map Prod.fst) (state : σ) :
    register ((entries.map entryLine).foldl step state) = register state := by
  induction entries generalizing state with
  | nil => rfl
  | cons first rest ih =>
      rw [List.map_cons, List.mem_cons, not_or] at absent
      have later := ih (fun state entry member =>
        reads state entry (List.mem_cons_of_mem _ member)) absent.2
      rw [List.map_cons, List.foldl_cons, later, reads state first List.mem_cons_self,
        if_neg (Ne.symm absent.1)]

/-- The register ends up with the value of its label. -/
theorem foldl_register
    (reads : ∀ state, ∀ entry ∈ entries, register (step state (entryLine entry)) =
      if entry.1 = label then value entry.2 else register state)
    (distinct : (entries.map Prod.fst).Nodup) (state : σ) :
    register ((entries.map entryLine).foldl step state) =
      ((entries.lookup label).map value).getD (register state) := by
  induction entries generalizing state with
  | nil => rfl
  | cons first rest ih =>
      rcases first with ⟨own, text⟩
      rw [List.map_cons, List.nodup_cons] at distinct
      have others := fun state entry member =>
        reads state entry (List.mem_cons_of_mem (own, text) member)
      have here := reads state (own, text) List.mem_cons_self
      rw [List.map_cons, List.foldl_cons, List.lookup_cons]
      by_cases same : own = label
      · subst same
        rw [foldl_register_of_absent others distinct.1, here, if_pos rfl, beq_self_eq_true]
        rfl
      · rw [ih others distinct.2, here, if_neg same, beq_false_of_ne (Ne.symm same)]

end

end MultipassWebui.Text
