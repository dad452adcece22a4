import Mathlib.Data.List.Forall2

/-!
# Sequences of fallible steps

When a sequence of steps over `Except` succeeds, what it then says of the
results, and which exceptions it can end with.
-/

namespace MultipassWebui.Effect

section

variable {ε α β γ : Type}

theorem bind_eq_ok_iff {first : Except ε α} {next : α → Except ε β} {value : β} :
    (first >>= next) = .ok value ↔ ∃ middle, first = .ok middle ∧ next middle = .ok value := by
  cases first with
  | error raised => simp [bind, Except.bind]
  | ok middle => simp [bind, Except.bind]

variable {f : α → Except ε β}

/-- Every element is handled, and the results are in the order of the elements. -/
theorem mapM_eq_ok_iff {elements : List α} {results : List β} :
    elements.mapM f = .ok results ↔
      List.Forall₂ (fun element result => f element = .ok result) elements results := by
  induction elements generalizing results with
  | nil => simp [pure, Except.pure, eq_comm]
  | cons element rest ih =>
      simp only [List.mapM_cons, bind_eq_ok_iff, ih, List.forall₂_cons_left_iff]
      constructor
      · rintro ⟨result, handled, others, follow, isResult⟩
        cases isResult
        exact ⟨result, others, handled, follow, rfl⟩
      · rintro ⟨result, others, handled, follow, rfl⟩
        exact ⟨result, handled, others, follow, rfl⟩

/-- A sequence succeeds if every element can be handled. -/
theorem exists_mapM {elements : List α} (handled : ∀ element ∈ elements, ∃ result,
    f element = .ok result) : ∃ results, elements.mapM f = .ok results := by
  induction elements with
  | nil => exact ⟨[], rfl⟩
  | cons element rest ih =>
      rcases handled element List.mem_cons_self with ⟨result, first⟩
      rcases ih fun other member => handled other (List.mem_cons_of_mem _ member) with
        ⟨results, others⟩
      refine ⟨result :: results, mapM_eq_ok_iff.mpr (.cons first (mapM_eq_ok_iff.mp others))⟩

/-- What every step keeps of its element, the sequence keeps. -/
theorem map_eq_map_of_mapM {elements : List α} {results : List β} {key : β → γ} {label : α → γ}
    (done : elements.mapM f = .ok results)
    (keeps : ∀ element result, f element = .ok result → key result = label element) :
    results.map key = elements.map label := by
  have steps := mapM_eq_ok_iff.mp done
  clear done
  induction steps with
  | nil => rfl
  | cons step _ ih => rw [List.map_cons, List.map_cons, ih, keeps _ _ step]

theorem mem_of_mapM_left {elements : List α} {results : List β}
    (done : elements.mapM f = .ok results) {element : α} (member : element ∈ elements) :
    ∃ result ∈ results, f element = .ok result := by
  have steps := mapM_eq_ok_iff.mp done
  clear done
  induction steps with
  | nil => cases member
  | @cons _ result _ _ step _ ih =>
      rcases List.mem_cons.mp member with rfl | later
      · exact ⟨result, List.mem_cons_self, step⟩
      · rcases ih later with ⟨found, among, handled⟩
        exact ⟨found, List.mem_cons_of_mem _ among, handled⟩

theorem mem_of_mapM_right {elements : List α} {results : List β}
    (done : elements.mapM f = .ok results) {result : β} (member : result ∈ results) :
    ∃ element ∈ elements, f element = .ok result := by
  have steps := mapM_eq_ok_iff.mp done
  clear done
  induction steps with
  | nil => cases member
  | @cons element _ _ _ step _ ih =>
      rcases List.mem_cons.mp member with rfl | later
      · exact ⟨element, List.mem_cons_self, step⟩
      · rcases ih later with ⟨source, among, handled⟩
        exact ⟨source, List.mem_cons_of_mem _ among, handled⟩

end

/-! ## Exceptions -/

section

variable {ε α β : Type} {P : ε → Prop}

/-- Every exception that the outcome can be satisfies a condition. -/
def Raises (P : ε → Prop) (outcome : Except ε α) : Prop :=
  ∀ raised, outcome = .error raised → P raised

theorem raises_ok (value : α) : Raises P (.ok value : Except ε α) := nofun

theorem raises_error {raised : ε} (holds : P raised) : Raises P (.error raised : Except ε α) := by
  rintro _ ⟨⟩
  exact holds

theorem raises_bind {first : Except ε α} {next : α → Except ε β} (raisesFirst : Raises P first)
    (raisesNext : ∀ value, Raises P (next value)) : Raises P (first >>= next) := by
  cases first with
  | error raised =>
      rintro _ ⟨⟩
      exact raisesFirst raised rfl
  | ok value => exact raisesNext value

theorem raises_mapM {f : α → Except ε β} (raisesEach : ∀ element, Raises P (f element))
    (elements : List α) : Raises P (elements.mapM f) := by
  induction elements with
  | nil => exact raises_ok []
  | cons element rest ih =>
      rw [List.mapM_cons]
      refine raises_bind (raisesEach element) fun result => ?_
      exact raises_bind ih fun results => raises_ok (result :: results)

end

end MultipassWebui.Effect
