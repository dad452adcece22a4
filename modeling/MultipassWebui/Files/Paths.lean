import MultipassWebui.Effect.RubyError
import MultipassWebui.Files.Names

/-!
# Paths

A place is an absolute path without special names, the innermost name first.
`expand_path` reads a path as a place by its text alone; what the kernel makes
of the same path is another matter, and the two agree on the text of a place.
-/

namespace MultipassWebui.Files

open MultipassWebui.Effect

abbrev Place := List String

/-- The names between the slashes. -/
def segments (path : String) : List String := (path.toList.splitOn '/').map String.ofList

def isAbsolute (path : String) : Bool := path.toList.head? = some '/'

/-- A name that is neither left out nor a step to somewhere else. -/
def Plain (name : String) : Prop := name ≠ "" ∧ name ≠ "." ∧ name ≠ ".."

instance (name : String) : Decidable (Plain name) := inferInstanceAs (Decidable (_ ∧ _))

def null : Char := Char.ofNat 0

/-- A name that a directory can have. -/
def Clean (name : String) : Prop := Plain name ∧ '/' ∉ name.toList ∧ null ∉ name.toList

instance (name : String) : Decidable (Clean name) := inferInstanceAs (Decidable (_ ∧ _))

/-- Take one more name of a path. -/
def push (place : Place) (name : String) : Place :=
  if name = "" ∨ name = "." then place
  else if name = ".." then place.tail
  else name :: place

/-- The text of a place. -/
def text (place : Place) : String := "/" ++ "/".intercalate place.reverse

/-- What `expand_path` knows of the process. -/
structure Surroundings where
  /-- `Dir.pwd` -/
  cwd : Place
  cwd_clean : ∀ name ∈ cwd, Clean name
  /-- The home directory of a user, or of the process for no name. -/
  home : String → Except RubyError String

theorem clean_root : ∀ name ∈ ([] : Place), Clean name := List.forall_mem_nil _

/-- Read a path from a place on. -/
def expandFrom (start : Place) (path : String) : Except RubyError Place :=
  if null ∈ path.toList then .error (.argumentError "string contains null byte")
  else .ok ((segments path).foldl push start)

/-- `File.expand_path` -/
def expandPath (around : Surroundings) (path : String) : Except RubyError Place :=
  match path.toList with
  | '~' :: rest => do
      let home ← around.home (String.ofList (rest.takeWhile (· ≠ '/')))
      if isAbsolute home then expandFrom [] (home ++ String.ofList (rest.dropWhile (· ≠ '/')))
      else .error (.argumentError "non-absolute home")
  | _ => expandFrom (if isAbsolute path then [] else around.cwd) path

/-- What is left of two lists of names after their common part. -/
def dropCommon : List String → List String → List String × List String
  | name :: names, other :: others =>
      if name = other then dropCommon names others else (name :: names, other :: others)
  | names, others => (names, others)

/-- `relative_path_from`, as a text. -/
def relativePathFrom (dest base : Place) : String :=
  let (down, up) := dropCommon dest.reverse base.reverse
  match List.replicate up.length ".." ++ down with
  | [] => "."
  | names => "/".intercalate names

/-! ## Names and segments -/

/-- The pieces are made of what is not the separator. -/
theorem mem_of_mem_splitOn {α : Type} [DecidableEq α] {separator : α} {elements : List α} :
    ∀ piece ∈ elements.splitOn separator, ∀ element ∈ piece,
      element ≠ separator ∧ element ∈ elements := by
  induction elements with
  | nil => simp
  | cons head rest ih =>
      have later : ∀ piece ∈ rest.splitOn separator, ∀ element ∈ piece,
          element ≠ separator ∧ element ∈ head :: rest := fun piece member element isIn =>
        ⟨(ih piece member element isIn).1, List.mem_cons_of_mem _ (ih piece member element isIn).2⟩
      rw [List.splitOn_cons_eq_if_modifyHead]
      split
      · intro piece member
        rcases List.mem_cons.mp member with rfl | inRest
        · exact nofun
        · exact later piece inRest
      · rename_i different
        obtain ⟨first, others, shape⟩ := List.exists_cons_of_ne_nil
            (List.splitOn_ne_nil separator rest)
        rw [shape] at later ⊢
        intro piece member
        rcases List.mem_cons.mp member with rfl | inRest
        · intro element isIn
          rcases List.mem_cons.mp isIn with rfl | inFirst
          · exact ⟨by simpa using different, List.mem_cons_self ..⟩
          · exact later first (List.mem_cons_self ..) element inFirst
        · exact later piece (List.mem_cons_of_mem _ inRest)

theorem mem_of_mem_segments {path name : String} (member : name ∈ segments path) :
    ∀ char ∈ name.toList, char ≠ '/' ∧ char ∈ path.toList := by
  obtain ⟨chars, split, rfl⟩ := List.mem_map.mp member
  rw [String.toList_ofList]
  exact mem_of_mem_splitOn chars split

theorem segments_append_slash (first second : String) :
    segments (first ++ "/" ++ second) = segments first ++ segments second := by
  have chars : (first ++ "/" ++ second).toList = first.toList ++ '/' :: second.toList := by
    simp
  rw [segments, chars, List.splitOn_append_cons_self, List.map_append]
  rfl

theorem segments_of_no_slash {name : String} (noSlash : '/' ∉ name.toList) :
    segments name = [name] := by
  rw [segments, List.splitOn_eq_singleton noSlash, List.map_singleton, String.ofList_toList]

/-- Taking a name keeps a place clean. -/
theorem clean_push {place : Place} {name : String} (noSlash : '/' ∉ name.toList)
    (noNull : null ∉ name.toList) (clean : ∀ outer ∈ place, Clean outer) :
    ∀ outer ∈ push place name, Clean outer := by
  unfold push
  split
  · exact clean
  · rename_i named
    obtain ⟨nonempty, notDot⟩ := not_or.mp named
    split
    · exact fun outer member => clean outer (List.mem_of_mem_tail member)
    · rename_i notUp
      intro outer member
      rcases List.mem_cons.mp member with rfl | old
      · exact ⟨⟨nonempty, notDot, notUp⟩, noSlash, noNull⟩
      · exact clean outer old

theorem clean_foldl_push {names : List String} (noSlash : ∀ name ∈ names, '/' ∉ name.toList)
    (noNull : ∀ name ∈ names, null ∉ name.toList) {place : Place}
    (clean : ∀ outer ∈ place, Clean outer) : ∀ outer ∈ names.foldl push place, Clean outer := by
  induction names generalizing place with
  | nil => exact clean
  | cons name rest ih =>
      rw [List.foldl_cons]
      exact ih (fun other member => noSlash other (List.mem_cons_of_mem _ member))
        (fun other member => noNull other (List.mem_cons_of_mem _ member))
        (clean_push (noSlash name (List.mem_cons_self ..))
            (noNull name (List.mem_cons_self ..)) clean)

theorem expandFrom_clean {start place : Place} {path : String}
    (clean : ∀ outer ∈ start, Clean outer) (expanded : expandFrom start path = .ok place) :
    ∀ outer ∈ place, Clean outer := by
  unfold expandFrom at expanded
  split at expanded
  · cases expanded
  · rename_i noNull
    obtain rfl := Except.ok.inj expanded
    exact clean_foldl_push (fun name member isIn => (mem_of_mem_segments member _ isIn).1 rfl)
      (fun name member isIn => noNull (mem_of_mem_segments member _ isIn).2) clean

theorem expandPath_clean {around : Surroundings} {path : String} {place : Place}
    (expanded : expandPath around path = .ok place) : ∀ outer ∈ place, Clean outer := by
  unfold expandPath at expanded
  split at expanded
  · cases found : around.home _ with
    | error raised =>
        rw [found] at expanded
        cases expanded
    | ok home =>
        rw [found] at expanded
        change (if isAbsolute home then _ else _) = _ at expanded
        split at expanded
        · exact expandFrom_clean (fun _ member => by cases member) expanded
        · cases expanded
  · refine expandFrom_clean ?_ expanded
    split
    · exact fun _ member => by cases member
    · exact around.cwd_clean

/-- A plain name is taken as it is. -/
theorem push_of_plain {name : String} (plain : Plain name) (place : Place) :
    push place name = name :: place := by
  rw [push, if_neg (not_or.mpr ⟨plain.1, plain.2.1⟩), if_neg plain.2.2]

theorem foldl_push_plain {names : List String} (plain : ∀ name ∈ names, Plain name)
    (place : Place) : names.foldl push place = names.reverse ++ place := by
  induction names generalizing place with
  | nil => rfl
  | cons name rest ih =>
      have first := plain name (List.mem_cons_self ..)
      have others := fun other member => plain other (List.mem_cons_of_mem _ member)
      rw [List.foldl_cons, push_of_plain first, ih others, List.reverse_cons, List.append_assoc,
        List.singleton_append]

theorem segments_text {place : Place} (clean : ∀ name ∈ place, Clean name) (given : place ≠ []) :
    segments (text place) = "" :: place.reverse := by
  have reversed : place.reverse ≠ [] := List.reverse_ne_nil_iff.mpr given
  have asOne : text place = "/".intercalate ("" :: place.reverse) := by
    rw [String.intercalate_cons_of_ne_nil reversed, String.empty_append, text]
  rw [segments, asOne, String.toList_intercalate]
  have plain : ∀ chars ∈ ("" :: place.reverse).map String.toList, '/' ∉ chars := by
    intro chars member
    obtain ⟨name, isName, rfl⟩ := List.mem_map.mp member
    rcases List.mem_cons.mp isName with rfl | inPlace
    · exact List.not_mem_nil
    · exact (clean name (List.mem_reverse.mp inPlace)).2.1
  rw [show "/".toList = ['/'] from rfl,
    List.splitOn_intercalate '/' plain (List.cons_ne_nil _ _), List.map_map]
  simp

theorem relativePathFrom_child (name : String) (base : Place) :
    relativePathFrom (name :: base) base = name := by
  have common : ∀ names : List String, dropCommon (names ++ [name]) names = ([name], []) := by
    intro names
    induction names with
    | nil => rfl
    | cons outer rest ih =>
        rw [List.cons_append, dropCommon, if_pos rfl]
        exact ih
  rw [relativePathFrom, List.reverse_cons, common]
  simp

theorem text_toList (place : Place) :
    (text place).toList = '/' :: ['/'].intercalate (place.reverse.map String.toList) := by
  rw [text, String.toList_append, String.toList_intercalate]
  rfl

theorem mem_intercalate {α : Type} {separator : List α} {lists : List (List α)} {element : α} :
    element ∈ separator.intercalate lists →
      element ∈ separator ∨ ∃ list ∈ lists, element ∈ list := by
  induction lists with
  | nil => simp
  | cons first rest ih =>
      cases rest with
      | nil =>
          rw [List.intercalate_singleton]
          exact fun member => Or.inr ⟨first, List.mem_cons_self .., member⟩
      | cons second others =>
          rw [List.intercalate_cons_cons]
          intro member
          rcases List.mem_append.mp member with early | later
          · rcases List.mem_append.mp early with inFirst | between
            · exact Or.inr ⟨first, List.mem_cons_self .., inFirst⟩
            · exact Or.inl between
          · rcases ih later with between | ⟨list, isIn, inList⟩
            · exact Or.inl between
            · exact Or.inr ⟨list, List.mem_cons_of_mem _ isIn, inList⟩

theorem isAbsolute_text (place : Place) : isAbsolute (text place) = true := by
  rw [isAbsolute, text_toList]
  rfl

theorem null_not_mem_text {place : Place} (clean : ∀ name ∈ place, Clean name) :
    null ∉ (text place).toList := by
  rw [text_toList]
  intro isIn
  rcases List.mem_cons.mp isIn with isSlash | later
  · exact absurd isSlash (by decide)
  · rcases mem_intercalate later with isSlash | ⟨list, isName, inName⟩
    · exact absurd (List.mem_singleton.mp isSlash) (by decide)
    · obtain ⟨name, member, rfl⟩ := List.mem_map.mp isName
      exact (clean name (List.mem_reverse.mp member)).2.2 inName

/-- The text of a place names the place. -/
theorem expandPath_text (around : Surroundings) {place : Place}
    (clean : ∀ name ∈ place, Clean name) : expandPath around (text place) = .ok place := by
  have taken : (segments (text place)).foldl push [] = place := by
    cases place with
    | nil => decide +kernel
    | cons inner outer =>
        rw [segments_text clean (List.cons_ne_nil inner outer), List.foldl_cons,
          foldl_push_plain fun name member => (clean name (List.mem_reverse.mp member)).1]
        simp [push]
  unfold expandPath
  rw [text_toList]
  change expandFrom (if isAbsolute (text place) then [] else around.cwd) (text place) = .ok place
  rw [isAbsolute_text, if_pos rfl, expandFrom, if_neg (null_not_mem_text clean), taken]

/-- A name is joined to the text of a place without a second slash. -/
theorem join_text {base : Place} (clean : ∀ outer ∈ base, Clean outer) (name : String) :
    join (text base) name = text (name :: base) := by
  cases base with
  | nil =>
      rw [join, show (text []).toList.rdropWhile (· = '/') = [] by decide +kernel]
      simp [text]
  | cons last outer =>
      obtain ⟨⟨nonempty, _⟩, noSlash, _⟩ := clean last (List.mem_cons_self ..)
      have lastChars : last.toList ≠ [] := fun empty => nonempty (String.toList_eq_nil_iff.mp empty)
      have shape : ∃ before, text (last :: outer) = before ++ last := by
        rw [text, List.reverse_cons]
        by_cases root : outer.reverse = []
        · exact ⟨"/", by rw [root, List.nil_append, String.intercalate_singleton]⟩
        · rw [String.intercalate_append_of_ne_nil root (List.cons_ne_nil _ _),
            String.intercalate_singleton, ← String.append_assoc]
          exact ⟨_, rfl⟩
      have ends : (text (last :: outer)).toList.rdropWhile (· = '/') =
          (text (last :: outer)).toList := by
        obtain ⟨before, shape⟩ := shape
        rw [shape, String.toList_append, List.rdropWhile_eq_self_iff]
        intro given
        rw [List.getLast_append_of_ne_nil given lastChars]
        exact fun isSlash => noSlash (of_decide_eq_true isSlash ▸ List.getLast_mem lastChars)
      have reversed : (last :: outer).reverse ≠ [] := by simp
      rw [join, ends, String.ofList_toList, text, text, List.reverse_cons (a := name),
        String.intercalate_append_of_ne_nil reversed (by simp), String.intercalate_singleton]
      simp only [String.append_assoc]

end MultipassWebui.Files
