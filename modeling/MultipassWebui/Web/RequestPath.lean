import Mathlib.Data.List.Chain
import MultipassWebui.Text.Strings

/-!
# Request paths

The path normalisation that the rate limiter and the router share, and the
pattern of the login route.  A path that has been normalised once stays as it is,
so both see the same path; but the pattern has an optional format that a
comparison with the bare path does not know.
-/

namespace MultipassWebui.Web

/-! ## Normalisation -/

/-- `squeeze!("/")` -/
def squeeze : List Char → List Char
  | '/' :: '/' :: rest => squeeze ('/' :: rest)
  | char :: rest => char :: squeeze rest
  | [] => []

/-- `delete_suffix!("/")` -/
def deleteSlash (path : List Char) : List Char :=
  if path.getLast? = some '/' then path.dropLast else path

/-- `[a-f0-9]` -/
def isLowerHex (char : Char) : Bool := "abcdef0123456789".toList.contains char

/-- `gsub!(/(%[a-f0-9]{2})/) { $1.upcase }` -/
def upcaseEscapes : List Char → List Char
  | '%' :: first :: second :: rest =>
      if isLowerHex first && isLowerHex second then
        '%' :: first.toUpper :: second.toUpper :: upcaseEscapes rest
      else '%' :: upcaseEscapes (first :: second :: rest)
  | char :: rest => char :: upcaseEscapes rest
  | [] => []

/-- `normalize_path` -/
def normalizePath (path : List Char) : List Char :=
  if squeeze ('/' :: path) = ['/'] then ['/']
  else upcaseEscapes (deleteSlash (squeeze ('/' :: path)))

/-! ### The parts of the normalisation -/

/-- No two neighbouring slashes. -/
def Squeezed (path : List Char) : Prop :=
  path.IsChain fun first second => ¬ (first = '/' ∧ second = '/')

@[simp]
theorem head?_squeeze (path : List Char) : (squeeze path).head? = path.head? := by
  fun_induction squeeze path with
  | case1 rest ih => simpa using ih
  | case2 char rest _ _ => rfl
  | case3 => rfl

theorem squeezed_squeeze (path : List Char) : Squeezed (squeeze path) := by
  fun_induction squeeze path with
  | case1 rest ih => exact ih
  | case2 char rest notDouble ih =>
      apply List.IsChain.cons ih
      rintro second isHead ⟨rfl, rfl⟩
      rw [head?_squeeze] at isHead
      rcases List.head?_eq_some_iff.mp isHead with ⟨others, rfl⟩
      exact notDouble others rfl rfl
  | case3 => exact List.IsChain.nil

theorem squeeze_of_squeezed {path : List Char} (squeezed : Squeezed path) :
    squeeze path = path := by
  fun_induction squeeze path with
  | case1 rest ih => exact absurd ⟨rfl, rfl⟩ (List.isChain_cons_cons.mp squeezed).1
  | case2 char rest _ ih => rw [ih squeezed.tail]
  | case3 => rfl

/-- Without its last slash a squeezed path does not end in a slash. -/
theorem getLast?_deleteSlash {path : List Char} (squeezed : Squeezed path) :
    (deleteSlash path).getLast? ≠ some '/' := by
  unfold deleteSlash
  split_ifs with ends
  · intro again
    have nonempty : path.dropLast ≠ [] := by
      intro isEmpty
      simp [isEmpty] at again
    apply squeezed.rel_getLast_dropLast nonempty
    rw [List.getLast?_eq_some_getLast nonempty] at again
    have notNil : path ≠ [] := fun isEmpty => nonempty (by simp [isEmpty])
    rw [List.getLast?_eq_some_getLast notNil] at ends
    exact ⟨Option.some.inj again, Option.some.inj ends⟩
  · exact ends

theorem Squeezed.deleteSlash {path : List Char} (squeezed : Squeezed path) :
    Squeezed (deleteSlash path) := by
  unfold Web.deleteSlash
  split_ifs
  · exact squeezed.dropLast
  · exact squeezed

theorem deleteSlash_of_getLast? {path : List Char} (ends : path.getLast? ≠ some '/') :
    deleteSlash path = path :=
  if_neg ends

theorem toUpper_of_isLowerHex {char : Char} (hex : isLowerHex char = true) :
    char.toUpper ≠ '%' ∧ char.toUpper ≠ '/' ∧ char ≠ '/' ∧ char ≠ '%' ∧
      (isLowerHex char.toUpper = true → char.toUpper.toUpper = char.toUpper) := by
  have all : ("abcdef0123456789".toList.all fun char => decide (char.toUpper ≠ '%' ∧
      char.toUpper ≠ '/' ∧ char ≠ '/' ∧ char ≠ '%' ∧
      (isLowerHex char.toUpper = true → char.toUpper.toUpper = char.toUpper))) = true := by
    decide
  exact of_decide_eq_true (List.all_eq_true.mp all char (List.contains_iff_mem.mp hex))

/-- Upcasing the escapes moves no slash. -/
theorem slashes_upcaseEscapes (path : List Char) :
    (upcaseEscapes path).map (fun char => decide (char = '/')) =
      path.map fun char => decide (char = '/') := by
  fun_induction upcaseEscapes path with
  | case1 first second rest hex ih =>
      rw [Bool.and_eq_true] at hex
      rcases toUpper_of_isLowerHex hex.1 with ⟨_, firstUp, firstLow, _, _⟩
      rcases toUpper_of_isLowerHex hex.2 with ⟨_, secondUp, secondLow, _, _⟩
      simp [ih, firstUp, firstLow, secondUp, secondLow]
  | case2 first second rest _ ih => simpa using ih
  | case3 char rest _ ih => simpa using ih
  | case4 => rfl

theorem squeezed_upcaseEscapes {path : List Char} (squeezed : Squeezed path) :
    Squeezed (upcaseEscapes path) := by
  have chain : ∀ path : List Char, Squeezed path ↔
      (path.map fun char => decide (char = '/')).IsChain fun first second =>
        ¬ (first = true ∧ second = true) := by
    intro path
    simp [Squeezed, List.isChain_map]
  rw [chain, slashes_upcaseEscapes, ← chain]
  exact squeezed

theorem slash_iff_of_map {char : Option Char} :
    char = some '/' ↔ char.map (fun char => decide (char = '/')) = some true := by
  cases char <;> simp

theorem getLast?_upcaseEscapes (path : List Char) :
    (upcaseEscapes path).getLast? = some '/' ↔ path.getLast? = some '/' := by
  rw [slash_iff_of_map, ← List.getLast?_map, slashes_upcaseEscapes, List.getLast?_map,
    ← slash_iff_of_map]

theorem head?_upcaseEscapes (path : List Char) :
    (upcaseEscapes path).head? = some '/' ↔ path.head? = some '/' := by
  rw [slash_iff_of_map, ← List.head?_map, slashes_upcaseEscapes, List.head?_map,
    ← slash_iff_of_map]

theorem upcaseEscapes_of_ne {char : Char} (notEscape : char ≠ '%') (rest : List Char) :
    upcaseEscapes (char :: rest) = char :: upcaseEscapes rest := by
  rw [upcaseEscapes.eq_2]
  intro first second others isEscape
  exact absurd isEscape notEscape

theorem upcaseEscapes_cons (char : Char) (rest : List Char) :
    ∃ others, upcaseEscapes (char :: rest) = char :: others := by
  by_cases percent : char = '%'
  · subst percent
    cases rest with
    | nil => exact ⟨[], rfl⟩
    | cons first others =>
        cases others with
        | nil => exact ⟨upcaseEscapes [first], by simp [upcaseEscapes]⟩
        | cons second others =>
            rw [upcaseEscapes.eq_1]
            split_ifs
            · exact ⟨_, rfl⟩
            · exact ⟨_, rfl⟩
  · exact ⟨_, upcaseEscapes_of_ne percent rest⟩

/-- A percent sign that starts no escape starts none in the result. -/
theorem upcaseEscapes_percent {first second : Char} {rest : List Char}
    (notHex : ¬ (isLowerHex first && isLowerHex second) = true) :
    upcaseEscapes ('%' :: upcaseEscapes (first :: second :: rest)) =
      '%' :: upcaseEscapes (upcaseEscapes (first :: second :: rest)) := by
  by_cases percent : first = '%'
  · subst percent
    rcases upcaseEscapes_cons '%' (second :: rest) with ⟨others, shape⟩
    rw [shape]
    cases others with
    | nil => rfl
    | cons third others => simp [upcaseEscapes.eq_1, isLowerHex]
  · rw [upcaseEscapes_of_ne percent]
    rcases upcaseEscapes_cons second rest with ⟨others, shape⟩
    rw [shape, upcaseEscapes.eq_1, if_neg notHex]

theorem upcaseEscapes_upcaseEscapes (path : List Char) :
    upcaseEscapes (upcaseEscapes path) = upcaseEscapes path := by
  fun_induction upcaseEscapes path with
  | case1 first second rest hex ih =>
      rw [Bool.and_eq_true] at hex
      rcases toUpper_of_isLowerHex hex.1 with ⟨firstPlain, _, _, _, firstAgain⟩
      rcases toUpper_of_isLowerHex hex.2 with ⟨secondPlain, _, _, _, secondAgain⟩
      have inner : upcaseEscapes (first.toUpper :: second.toUpper :: upcaseEscapes rest) =
          first.toUpper :: second.toUpper :: upcaseEscapes rest := by
        rw [upcaseEscapes_of_ne firstPlain, upcaseEscapes_of_ne secondPlain, ih]
      rw [upcaseEscapes.eq_1]
      split_ifs with again
      · rw [Bool.and_eq_true] at again
        rw [firstAgain again.1, secondAgain again.2, ih]
      · rw [inner]
  | case2 first second rest notHex ih => rw [upcaseEscapes_percent notHex, ih]
  | case3 char rest notEscape ih =>
      by_cases percent : char = '%'
      · subst percent
        cases rest with
        | nil => rfl
        | cons first others =>
            cases others with
            | nil => simp [upcaseEscapes]
            | cons second others => exact absurd rfl (notEscape first second others rfl)
      · rw [upcaseEscapes_of_ne percent, ih]
  | case4 => rfl

/-! ### The normal form -/

/-- What a normalised path looks like. -/
structure Normalized (path : List Char) : Prop where
  leads : path.head? = some '/'
  squeezed : Squeezed path
  ends : path.getLast? ≠ some '/'
  upcased : upcaseEscapes path = path

theorem Normalized.normalizePath {path : List Char} (normalized : Normalized path) :
    normalizePath path = path := by
  rcases List.head?_eq_some_iff.mp normalized.leads with ⟨rest, rfl⟩
  have squeezed : squeeze ('/' :: '/' :: rest) = '/' :: rest :=
    squeeze_of_squeezed normalized.squeezed
  have notRoot : '/' :: rest ≠ ['/'] := by
    intro root
    apply normalized.ends
    rw [root]
    rfl
  rw [Web.normalizePath, squeezed, if_neg notRoot, deleteSlash_of_getLast? normalized.ends,
    normalized.upcased]

theorem normalizePath_cases (path : List Char) :
    normalizePath path = ['/'] ∨ Normalized (normalizePath path) := by
  unfold normalizePath
  split_ifs with root
  · exact Or.inl rfl
  · right
    have squeezed := squeezed_squeeze ('/' :: path)
    have leads : (deleteSlash (squeeze ('/' :: path))).head? = some '/' := by
      have whole : (squeeze ('/' :: path)).head? = some '/' := head?_squeeze _
      rcases List.head?_eq_some_iff.mp whole with ⟨rest, shape⟩
      unfold deleteSlash
      split_ifs
      · rw [shape]
        cases rest with
        | nil => exact absurd shape root
        | cons second others => rfl
      · exact whole
    exact {
      leads := (head?_upcaseEscapes _).mpr leads
      squeezed := squeezed_upcaseEscapes squeezed.deleteSlash
      ends := fun ends => getLast?_deleteSlash squeezed ((getLast?_upcaseEscapes _).mp ends)
      upcased := upcaseEscapes_upcaseEscapes _ }

/-- A path that was normalised once stays as it is. -/
theorem normalizePath_normalizePath (path : List Char) :
    normalizePath (normalizePath path) = normalizePath path := by
  rcases normalizePath_cases path with root | normalized
  · rw [root]
    rfl
  · exact normalized.normalizePath

/-! ## The login route -/

/-- A character of a path segment, `[^.\/?]`. -/
def isSegmentChar (char : Char) : Bool := char ≠ '.' && char ≠ '/' && char ≠ '?'

def loginPath : List Char := "/login".toList

/-- `/login(.:format)`: the format, if the path matches. -/
def matchLogin (path : List Char) : Option (Option (List Char)) :=
  if loginPath.isPrefixOf path then
    match path.drop loginPath.length with
    | [] => some none
    | char :: format =>
        if char = '.' && !format.isEmpty && format.all isSegmentChar then some (some format)
        else none
  else none

/-- Without a format the route matches the bare path only. -/
theorem matchLogin_eq_none_iff (path : List Char) :
    matchLogin path = some none ↔ path = loginPath := by
  constructor
  · intro matched
    unfold matchLogin at matched
    split_ifs at matched with leads
    rcases List.isPrefixOf_iff_prefix.mp leads with ⟨rest, rfl⟩
    rw [List.drop_left] at matched
    cases rest with
    | nil => exact List.append_nil _
    | cons char format =>
        dsimp only at matched
        split_ifs at matched
        cases matched
  · rintro rfl
    decide

end MultipassWebui.Web
