import MultipassWebui.Migration.Faithful
import MultipassWebui.Web.ConfigurationControllers

/-!
# Ids of profiles

When the id that is made from the name of a profile has the format that the model
asks for.  The substitutions leave the first character of the lower-cased name in
its place, and they make one hyphen of several other characters in a row.
-/

namespace MultipassWebui.Web

open MultipassWebui.Effect
open MultipassWebui.Migration (Profile slugErrors presence)
open MultipassWebui.Records (matchesIdSlug FieldError validate_eq_nil_iff)
open MultipassWebui.Records (Request)
open MultipassWebui.Text

namespace ProfilesController

/-! ## Names -/

/-- The lower case of a character, as far as ASCII letters come out of it. -/
def lowered (char : Char) : List Char :=
  if char.toNat = 0x212A then ['k']
  else if char.toNat = 0x130 then ['i', Char.ofNat 0x307]
  else [char.toLower]

/-- A letter, a digit or an underscore. -/
def isWord (char : Char) : Bool := isAlnum char || char = '_'

/-- The length of a text in which other characters in a row count once. -/
def foldedLength : List Char → Nat
  | [] => 0
  | char :: rest =>
      if !isWord char && rest.head?.any (fun next => !isWord next) then foldedLength rest
      else foldedLength rest + 1

/-- The lower-cased name begins with a letter or a digit, and it has 58 characters at
most, others than letters, digits and underscores counted once for each row of them. -/
def NameFits (name : String) : Prop :=
  (∃ first ∈ (name.toList.flatMap lowered).head?, isAlnum first = true) ∧
    foldedLength (name.toList.flatMap lowered) ≤ 58

instance (name : String) : Decidable (NameFits name) :=
  decidable_of_iff (((name.toList.flatMap lowered).head?.any isAlnum = true) ∧
    foldedLength (name.toList.flatMap lowered) ≤ 58) (by rw [Option.any_eq_true]; rfl)

/-- `SecureRandom.hex(2)` draws one of these. -/
def IsHexSuffix (suffix : String) : Prop :=
  suffix.toList.length = 4 ∧
    ∀ char ∈ suffix.toList, char ∈ "0123456789abcdef".toList

/-! ## The substitutions -/

/-- `gsub(/[^a-z0-9_-]/, "-")` -/
def hyphenated (char : Char) : Char := if isWord char then char else '-'

theorem hyphenated_of_isWord {char : Char} (word : isWord char = true) :
    hyphenated char = char :=
  if_pos word

theorem hyphenated_of_not_isWord {char : Char} (other : isWord char = false) :
    hyphenated char = '-' := by
  rw [hyphenated, other]
  rfl

theorem hyphenated_eq_hyphen_iff (char : Char) : hyphenated char = '-' ↔ isWord char = false := by
  constructor
  · intro hyphen
    by_contra word
    rw [Bool.not_eq_false] at word
    rw [hyphenated_of_isWord word] at hyphen
    subst hyphen
    revert word
    decide
  · exact hyphenated_of_not_isWord

theorem isAlnum_hyphenated (char : Char) : isAlnum (hyphenated char) = isAlnum char := by
  by_cases word : isWord char = true
  · rw [hyphenated_of_isWord word]
  · rw [Bool.not_eq_true] at word
    rw [hyphenated_of_not_isWord word]
    rw [isWord, Bool.or_eq_false_iff] at word
    rw [word.1]
    decide

/-- The characters that the format allows after the first one. -/
def isSlugChar (char : Char) : Bool := isAlnum char || char = '_' || char = '-'

theorem isSlugChar_hyphenated (char : Char) : isSlugChar (hyphenated char) = true := by
  by_cases word : isWord char = true
  · rw [hyphenated_of_isWord word, isSlugChar]
    rw [isWord] at word
    rw [word]
    rfl
  · rw [Bool.not_eq_true] at word
    rw [hyphenated_of_not_isWord word]
    decide

theorem toLower_of_not_upper {char : Char} (other : ¬ (65 ≤ char.toNat ∧ char.toNat ≤ 90)) :
    char.toLower = char := by
  apply dif_neg
  simpa [UInt32.le_iff_toNat_le] using other

theorem isAlnum_toLower (char : Char) : isAlnum char.toLower = isAlnum char := by
  by_cases upper : 65 ≤ char.toNat ∧ char.toNat ≤ 90
  · have table : ∀ letter : Fin 26, isAlnum (Char.ofNat (65 + letter)).toLower = true := by decide
    have entry := table ⟨char.toNat - 65, by omega⟩
    rw [Fin.val_mk, Nat.add_sub_cancel' upper.1, Char.ofNat_toNat] at entry
    rw [entry]
    simp [isAlnum, upper]
  · rw [toLower_of_not_upper upper]

/-- The two steps of the model, lower case and the first `gsub`. -/
theorem slugChars_eq (char : Char) : slugChars char = (lowered char).map hyphenated := by
  rw [slugChars, lowered]
  by_cases kelvin : char.toNat = 0x212A
  · rw [if_pos kelvin, if_pos kelvin]
    decide
  · rw [if_neg kelvin, if_neg kelvin]
    by_cases dotted : char.toNat = 0x130
    · rw [if_pos dotted, if_pos dotted]
      decide
    · rw [if_neg dotted, if_neg dotted, List.map_singleton]
      by_cases alnum : isAlnum char = true
      · have word : isWord char.toLower = true := by
          rw [isWord, isAlnum_toLower, alnum]
          rfl
        rw [alnum, hyphenated_of_isWord word]
        rfl
      · have same : char.toLower = char := by
          apply toLower_of_not_upper
          intro upper
          apply alnum
          simp [isAlnum, upper]
        rw [Bool.not_eq_true] at alnum
        rw [alnum, same]
        by_cases underscore : char = '_'
        · subst underscore
          decide
        · by_cases hyphen : char = '-'
          · subst hyphen
            decide
          · rw [hyphenated_of_not_isWord (by simp [isWord, alnum, underscore])]
            simp [underscore, hyphen]

theorem squeezeHyphens_cons (char : Char) (rest : List Char) :
    squeezeHyphens (char :: rest) =
      if char = '-' ∧ rest.head? = some '-' then squeezeHyphens rest
      else char :: squeezeHyphens rest := by
  by_cases twice : char = '-' ∧ rest.head? = some '-'
  · rcases twice with ⟨rfl, second⟩
    rcases List.head?_eq_some_iff.mp second with ⟨others, rfl⟩
    rw [squeezeHyphens]
    rfl
  · rw [if_neg twice, squeezeHyphens]
    intro others isHyphen second
    exact twice ⟨isHyphen, by rw [second]; rfl⟩

theorem head?_squeezeHyphens (text : List Char) : (squeezeHyphens text).head? = text.head? := by
  induction text with
  | nil => rfl
  | cons char rest ih =>
      rw [squeezeHyphens_cons]
      split
      · rename_i twice
        rw [ih, twice.2, twice.1]
        rfl
      · rfl

theorem mem_of_mem_squeezeHyphens {text : List Char} {char : Char}
    (member : char ∈ squeezeHyphens text) : char ∈ text := by
  induction text with
  | nil => exact member
  | cons first rest ih =>
      rw [squeezeHyphens_cons] at member
      split at member
      · exact List.mem_cons_of_mem first (ih member)
      · rcases List.mem_cons.mp member with here | later
        · exact here ▸ List.mem_cons_self
        · exact List.mem_cons_of_mem first (ih later)

theorem length_squeezeHyphens (text : List Char) :
    (squeezeHyphens (text.map hyphenated)).length = foldedLength text := by
  induction text with
  | nil => rfl
  | cons char rest ih =>
      have folds : (hyphenated char = '-' ∧ (rest.map hyphenated).head? = some '-') ↔
          (!isWord char && rest.head?.any fun next => !isWord next) = true := by
        rw [hyphenated_eq_hyphen_iff, List.head?_map]
        cases rest.head? with
        | none => simp
        | some next => simp [hyphenated_eq_hyphen_iff]
      rw [List.map_cons, squeezeHyphens_cons, foldedLength]
      by_cases both : (!isWord char && rest.head?.any fun next => !isWord next) = true
      · rw [if_pos (folds.mpr both), if_pos both, ih]
      · rw [if_neg fun text => both (folds.mp text), if_neg both, List.length_cons, ih]

/-! ## The generated id -/

/-- The characters of the id before the random part. -/
def baseChars (name : String) : List Char :=
  squeezeHyphens ((name.toList.flatMap lowered).map hyphenated)

theorem baseChars_eq (name : String) :
    squeezeHyphens (name.toList.flatMap slugChars) = baseChars name := by
  rw [baseChars, List.map_flatMap]
  congr 2
  funext char
  exact slugChars_eq char

theorem isSlugChar_of_mem_baseChars {name : String} {char : Char}
    (member : char ∈ baseChars name) : isSlugChar char = true := by
  have replaced := mem_of_mem_squeezeHyphens member
  rcases List.mem_map.mp replaced with ⟨source, _, rfl⟩
  exact isSlugChar_hyphenated source

theorem lowered_ne_nil (char : Char) : lowered char ≠ [] := by
  rw [lowered]
  split
  · exact List.cons_ne_nil _ _
  · split
    · exact List.cons_ne_nil _ _
    · exact List.cons_ne_nil _ _

theorem isSpace_of_isSlugChar {char : Char} (allowed : isSlugChar char = true) :
    isSpace char = false := by
  have bounds : 45 ≤ char.toNat ∧ char.toNat ≤ 122 := by
    rw [isSlugChar, Bool.or_eq_true, Bool.or_eq_true, decide_eq_true_eq, decide_eq_true_eq]
      at allowed
    rcases allowed with (alnum | rfl) | rfl
    · simp only [isAlnum, isDigit, Bool.or_eq_true, Bool.and_eq_true, decide_eq_true_eq] at alnum
      omega
    · decide
    · decide
  simp only [isSpace, Bool.or_eq_false_iff, Bool.and_eq_false_iff, decide_eq_false_iff_not]
  omega

/-- A name that is not blank leaves something of itself. -/
theorem exists_baseChars_eq_cons {name : String} (named : blank name = false) :
    ∃ first rest, baseChars name = first :: rest := by
  have given : name.toList ≠ [] := by
    intro empty
    rw [blank, empty] at named
    cases named
  rcases List.exists_cons_of_ne_nil given with ⟨initial, others, chars⟩
  rcases List.exists_cons_of_ne_nil (lowered_ne_nil initial) with ⟨head, tail, lower⟩
  have start : (baseChars name).head? = some (hyphenated head) := by
    rw [baseChars, head?_squeezeHyphens, chars, List.flatMap_cons, lower]
    rfl
  rcases List.head?_eq_some_iff.mp start with ⟨rest, isBase⟩
  exact ⟨hyphenated head, rest, isBase⟩

variable {site : Deployment} {name : String}

theorem toList_generateIdSlug (named : blank name = false) :
    (generateIdSlug site name).toList = baseChars name ++ '-' :: site.slugHex.toList := by
  have visible : blank (String.ofList (baseChars name)) = false := by
    rcases exists_baseChars_eq_cons named with ⟨first, rest, isBase⟩
    have allowed : isSlugChar first = true := by
      apply @isSlugChar_of_mem_baseChars name
      rw [isBase]
      exact List.mem_cons_self
    rw [blank, String.toList_ofList, isBase, List.all_cons, isSpace_of_isSlugChar allowed]
    rfl
  rw [generateIdSlug, baseChars_eq, visible]
  simp

theorem isSlugChar_of_hex {suffix : String} (hex : IsHexSuffix suffix) {char : Char}
    (member : char ∈ suffix.toList) : isSlugChar char = true := by
  have table : "0123456789abcdef".toList.all isSlugChar = true := by decide
  exact List.all_eq_true.mp table char (hex.2 char member)

/-- The substitutions leave the first character as it is, or make a hyphen of it. -/
theorem isAlnum_first_iff {first : Char} {rest : List Char}
    (isBase : baseChars name = first :: rest) :
    isAlnum first = true ↔
      ∃ head ∈ (name.toList.flatMap lowered).head?, isAlnum head = true := by
  have start := head?_squeezeHyphens ((name.toList.flatMap lowered).map hyphenated)
  change (baseChars name).head? = _ at start
  rw [isBase, List.head?_cons, List.head?_map] at start
  rcases Option.map_eq_some_iff.mp start.symm with ⟨head, isHead, rfl⟩
  rw [isAlnum_hyphenated, isHead]
  simp

/-- What follows the first character is allowed there. -/
theorem isSlugChar_of_mem_rest (hex : IsHexSuffix site.slugHex) {first : Char} {rest : List Char}
    (isBase : baseChars name = first :: rest) {char : Char}
    (member : char ∈ rest ++ '-' :: site.slugHex.toList) : isSlugChar char = true := by
  rcases List.mem_append.mp member with ofBase | ofSuffix
  · apply @isSlugChar_of_mem_baseChars name
    rw [isBase]
    exact List.mem_cons_of_mem first ofBase
  · rcases List.mem_cons.mp ofSuffix with rfl | digit
    · decide
    · exact isSlugChar_of_hex hex digit

/-- The id has the format exactly if the name fits. -/
theorem matchesIdSlug_generateIdSlug (hex : IsHexSuffix site.slugHex)
    (named : blank name = false) :
    matchesIdSlug (generateIdSlug site name) = true ↔ NameFits name := by
  rcases exists_baseChars_eq_cons named with ⟨first, rest, isBase⟩
  have length : (first :: rest).length = foldedLength (name.toList.flatMap lowered) := by
    rw [← isBase]
    exact length_squeezeHyphens (name.toList.flatMap lowered)
  have total : (rest ++ '-' :: site.slugHex.toList).length ≤ 62 ↔ (first :: rest).length ≤ 58 := by
    rw [List.length_append, List.length_cons, List.length_cons, hex.1]
    omega
  rw [matchesIdSlug, matchesLeading, toList_generateIdSlug named, isBase, List.cons_append]
  change (isAlnum first && (rest ++ '-' :: site.slugHex.toList).all isSlugChar &&
    decide ((rest ++ '-' :: site.slugHex.toList).length ≤ 62)) = true ↔ _
  rw [Bool.and_eq_true, Bool.and_eq_true, decide_eq_true_eq, List.all_eq_true, total, length,
    isAlnum_first_iff isBase, NameFits]
  constructor
  · rintro ⟨⟨begins, _⟩, short⟩
    exact ⟨begins, short⟩
  · rintro ⟨begins, short⟩
    exact ⟨⟨begins, fun char => isSlugChar_of_mem_rest hex isBase⟩, short⟩

/-! ## The created profile -/

variable {request : Request} {p : Permitted} {rows : List StoredProfile}

/-- The row that is saved for the permitted parameters. -/
def newProfile (site : Deployment) (p : Permitted) (name : String) : StoredProfile :=
  assign site p (blankProfile (generateIdSlug site name))

/-- An id in the format is present. -/
theorem slugErrors_eq_nil_iff (idSlug : String) :
    slugErrors idSlug = [] ↔ matchesIdSlug idSlug = true := by
  rw [slugErrors, List.append_eq_nil_iff, presence, validate_eq_nil_iff, validate_eq_nil_iff]
  constructor
  · intro both
    exact both.2
  · intro isSlug
    refine ⟨?_, isSlug⟩
    rw [matchesIdSlug, matchesLeading] at isSlug
    split at isSlug
    · cases isSlug
    · rename_i first rest chars
      rw [Bool.and_eq_true, Bool.and_eq_true] at isSlug
      have visible : isSpace first = false := by
        apply isSpace_of_isSlugChar
        rw [isSlugChar, isSlug.1.1]
        rfl
      rw [blank, chars, List.all_cons, visible]
      rfl

/-- Some id would make the profile valid, and its numbers fit their columns. -/
def OthersValid (site : Deployment) (p : Permitted) : Prop :=
  ∃ idSlug, errors site p (assign site p (blankProfile idSlug)) = [] ∧
    stored.{0} (assign site p (blankProfile idSlug)) = .ok ⟨⟩

theorem errors_newProfile (others : OthersValid site p) :
    errors site p (newProfile site p name) = [] ↔
      matchesIdSlug (generateIdSlug site name) = true := by
  rcases others with ⟨idSlug, noErrors, _⟩
  rw [← slugErrors_eq_nil_iff]
  simp only [errors, List.append_eq_nil_iff] at noErrors
  rcases noErrors with ⟨⟨⟨⟨_, ofName⟩, ofCpus⟩, ofMemory⟩, ofDisk⟩
  simp only [errors, List.append_eq_nil_iff]
  constructor
  · intro all
    exact all.1.1.1.1
  · intro ofId
    exact ⟨⟨⟨⟨ofId, ofName⟩, ofCpus⟩, ofMemory⟩, ofDisk⟩

theorem stored_newProfile (others : OthersValid site p) :
    stored.{0} (newProfile site p name) = .ok ⟨⟩ := by
  rcases others with ⟨idSlug, _, fits⟩
  have cpus : (newProfile site p name).cpus = (assign site p (blankProfile idSlug)).cpus := rfl
  have memory : (newProfile site p name).memoryMb =
    (assign site p (blankProfile idSlug)).memoryMb := rfl
  have disk : (newProfile site p name).diskGb = (assign site p (blankProfile idSlug)).diskGb := rfl
  rw [stored] at fits ⊢
  rw [cpus, memory, disk]
  exact fits

/-- A profile whose other fields are valid is saved if its id has the format and is not
taken, and otherwise nothing is. -/
theorem createProfile_apply (permitted : profileParams request = .ok p)
    (others : OthersValid site p) (named : profileName site request = name) :
    (matchesIdSlug (generateIdSlug site name) = true ∧
        (∀ row ∈ rows, row.idSlug ≠ generateIdSlug site name) →
      createProfile site request rows =
        (.ok (some (generateIdSlug site name)), rows ++ [newProfile site p name])) ∧
    (¬ (matchesIdSlug (generateIdSlug site name) = true ∧
        ∀ row ∈ rows, row.idSlug ≠ generateIdSlug site name) →
      createProfile site request rows = (.ok none, rows)) := by
  subst named
  have fits := @stored_newProfile site (profileName site request) p others
  have first : (Exec.ofExcept (profileParams request) : Exec (List StoredProfile) RubyError
      Permitted) rows = (.ok p, rows) := by
    rw [permitted, Exec.ofExcept_apply]
  rw [← errors_newProfile others, createProfile, Exec.bind_ok first, Exec.bind_pure_apply,
    ← newProfile]
  constructor
  · rintro ⟨valid, unused⟩
    rw [saveNew_of_valid valid unused fits]
    rfl
  · intro invalid
    rw [saveNew_of_invalid invalid]
    rfl

/-- For a name that is not blank, the id has the format exactly if the name fits, and a
profile whose other fields are valid is then created, unless the id is taken. -/
theorem generateIdSlug_valid_iff (hex : IsHexSuffix site.slugHex) (named : blank name = false) :
    (matchesIdSlug (generateIdSlug site name) = true ↔ NameFits name) ∧
    ∀ (request : Request) (p : Permitted) (rows : List StoredProfile),
      profileName site request = name → profileParams request = .ok p → OthersValid site p →
      ((createProfile site request rows).1 = .ok (some (generateIdSlug site name)) ↔
        NameFits name ∧ ∀ row ∈ rows, row.idSlug ≠ generateIdSlug site name) := by
  refine ⟨matchesIdSlug_generateIdSlug hex named, ?_⟩
  intro request p rows isName permitted others
  have outcome := @createProfile_apply site name request p rows permitted others isName
  rw [← matchesIdSlug_generateIdSlug hex named]
  constructor
  · intro created
    by_contra refused
    rw [outcome.2 refused] at created
    cases created
  · intro accepted
    rw [outcome.1 accepted]

/-- An installation that draws the suffix `ab12`. -/
def profileSite : Deployment := ⟨Migration.plainEnvironment, fun _ => "", 0, "ab12", "ab12"⟩

/-- The form with a name only. -/
def profileForm (name : String) : Request :=
  ⟨"POST", "/profiles", .object [("profile", .object [("name", .string name)])]⟩

theorem isHexSuffix_profileSite : IsHexSuffix profileSite.slugHex := by
  constructor
  · rfl
  · have table : ("ab12".toList.all fun char => "0123456789abcdef".toList.contains char) =
        true := by decide
    intro char member
    exact List.contains_iff_mem.mp (List.all_eq_true.mp table char member)

/-- A name of two words. -/
theorem generateIdSlug_valid_iff_twoWords :
    (createProfile profileSite (profileForm "Web server") []).1 = .ok (some "web-server-ab12") := by
  have others : OthersValid profileSite [("name", .string "Web server")] :=
    ⟨"x", by decide, by decide⟩
  have created := (@generateIdSlug_valid_iff profileSite "Web server" isHexSuffix_profileSite
    (by decide)).2
    (profileForm "Web server") [("name", .string "Web server")] [] (by decide) (by rfl) others
  exact created.mpr ⟨by decide, fun row member => absurd member List.not_mem_nil⟩

/-- A name that begins with a symbol, which becomes a hyphen. -/
theorem generateIdSlug_symbol :
    ¬ ∀ (site : Deployment) (name : String), IsHexSuffix site.slugHex → blank name = false →
      matchesIdSlug (generateIdSlug site name) = true := by
  intro always
  have accepted := always profileSite "!foo" isHexSuffix_profileSite (by decide)
  revert accepted
  decide

end ProfilesController

end MultipassWebui.Web
