import Mathlib.Data.List.Find
import MultipassWebui.Effect.RubyError
import MultipassWebui.Numbers.Decimal

/-!
# Size strings

`parse_memory_to_mb` and `parse_disk_to_gb`.  Both take the unit off the end of
the text; each has a table of units of its own, in which a unit that is missing
counts as bytes.
-/

namespace MultipassWebui.Multipass

open MultipassWebui.Effect
open MultipassWebui.Numbers
open MultipassWebui.Text

/-- The suffixes of more than one letter, in the order in which they are tried. -/
def SUFFIXES : List String := ["GiB", "MiB", "KiB", "TiB", "GB", "MB", "KB", "TB"]

/-- `[GgMmKkTt]` -/
def SINGLE_LETTERS : List Char := "GgMmKkTt".toList

/-- `strip_unit_suffix` -/
def stripUnitSuffix (s : List Char) : List Char × Char :=
  match SUFFIXES.find? fun suffix => suffix.toList.isSuffixOf s with
  | some suffix => (s.take (s.length - suffix.length), suffix.toList.headD 'B')
  | none =>
      match s.getLast? with
      | some last =>
          if 1 < s.length && SINGLE_LETTERS.contains last then (s.dropLast, last) else (s, 'B')
      | none => (s, 'B')

/-- `to_i` of a floating-point number. -/
def truncate (number : Double) : Except RubyError Int :=
  match number.toInt with
  | some value => .ok value
  | none => .error (.standardError "FloatDomainError")

/-- `parse_memory_to_mb` -/
def parseMemoryToMb (s : String) : Except RubyError Int :=
  let s := (strip s).toList
  if s = [] then .ok 0
  else
    let (num, unit) := stripUnitSuffix s
    match unit.toLower with
    | 'g' => truncate ((toF num).times 1024)
    | 'm' => truncate (toF num)
    | 'k' => truncate ((toF num).times (1 / 1024))
    | 't' => truncate (((toF num).times 1024).times 1024)
    | _ => .ok (toI num / (1024 * 1024))

/-- `parse_disk_to_gb` -/
def parseDiskToGb (s : String) : Except RubyError Int :=
  let s := (strip s).toList
  if s = [] then .ok 0
  else
    let (num, unit) := stripUnitSuffix s
    match unit.toLower with
    | 'g' => truncate (toF num)
    | 'm' => truncate ((toF num).times (1 / 1024))
    | 't' => truncate ((toF num).times 1024)
    | _ => .ok (toI num / (1024 * 1024 * 1024))

/-! ## Units -/

/-- What a size is counted in. -/
inductive SizeUnit where
  | byte
  | kibi
  | mebi
  | gibi
  | tebi
  deriving DecidableEq, Repr

namespace SizeUnit

/-- The bytes of a unit. -/
def bytes : SizeUnit → ℕ
  | byte => 1
  | kibi => 2 ^ 10
  | mebi => 2 ^ 20
  | gibi => 2 ^ 30
  | tebi => 2 ^ 40

/-- The suffixes that stand for a unit. -/
def suffixes : SizeUnit → List String
  | byte => [""]
  | kibi => ["K", "k", "KB", "KiB"]
  | mebi => ["M", "m", "MB", "MiB"]
  | gibi => ["G", "g", "GB", "GiB"]
  | tebi => ["T", "t", "TB", "TiB"]

/-- The letter that the parsers see. -/
def letter : SizeUnit → Char
  | byte => 'b'
  | kibi => 'k'
  | mebi => 'm'
  | gibi => 'g'
  | tebi => 't'

end SizeUnit

/-! ## Taking the unit off -/

section Suffix

variable {digits : List Char} (all : ∀ char ∈ digits, isDigit char = true)

include all

/-- A text without digits ends what follows the digits, if it ends the whole. -/
theorem suffix_append_iff {ending rest : List Char}
    (noDigit : ∀ char ∈ ending, isDigit char = false) :
    ending <:+ digits ++ rest ↔ ending <:+ rest := by
  constructor
  · intro ends
    rcases List.suffix_or_suffix_of_suffix ends (List.suffix_append digits rest) with
      short | ⟨more, rfl⟩
    · exact short
    · rcases ends with ⟨front, same⟩
      rw [← List.append_assoc, List.append_cancel_right_eq] at same
      cases more with
      | nil => exact List.suffix_refl rest
      | cons char others =>
          have isIn : char ∈ digits := by simp [← same]
          have outside := noDigit char (by simp)
          rw [all char isIn] at outside
          cases outside
  · intro ends
    exact ends.trans (List.suffix_append digits rest)

theorem find_suffix (rest : List Char) :
    (SUFFIXES.find? fun suffix => suffix.toList.isSuffixOf (digits ++ rest)) =
      SUFFIXES.find? fun suffix => suffix.toList.isSuffixOf rest := by
  apply List.find?_congr
  intro suffix member
  have noDigit : ∀ suffix ∈ SUFFIXES, ∀ char ∈ suffix.toList, isDigit char = false := by
    simp [SUFFIXES, isDigit]
  rw [Bool.eq_iff_iff, List.isSuffixOf_iff_suffix, List.isSuffixOf_iff_suffix]
  exact suffix_append_iff all (noDigit suffix member)

/-- A suffix of several letters. -/
theorem stripUnitSuffix_long {suffix : String}
    (found : (SUFFIXES.find? fun other => other.toList.isSuffixOf suffix.toList) = some suffix) :
    stripUnitSuffix (digits ++ suffix.toList) = (digits, suffix.toList.headD 'B') := by
  unfold stripUnitSuffix
  rw [find_suffix all, found]
  simp [← String.length_toList]

/-- A suffix of one letter. -/
theorem stripUnitSuffix_single (nonempty : digits ≠ []) {letter : Char}
    (noSuffix : (SUFFIXES.find? fun other => other.toList.isSuffixOf [letter]) = none)
    (isLetter : SINGLE_LETTERS.contains letter = true) :
    stripUnitSuffix (digits ++ [letter]) = (digits, letter) := by
  have long : 0 < digits.length := List.length_pos_iff.mpr nonempty
  have isIn : letter ∈ SINGLE_LETTERS := List.contains_iff_mem.mp isLetter
  unfold stripUnitSuffix
  rw [find_suffix all, noSuffix]
  simp [long, isIn]

/-- No suffix. -/
theorem stripUnitSuffix_none : stripUnitSuffix digits = (digits, 'B') := by
  have noSuffix := find_suffix all []
  rw [List.append_nil] at noSuffix
  unfold stripUnitSuffix
  rw [noSuffix, show (SUFFIXES.find? fun other => other.toList.isSuffixOf []) = none by decide]
  cases last : digits.getLast? with
  | none => rfl
  | some char =>
      have digit := all char (List.mem_of_getLast? last)
      have noLetter : char ∉ SINGLE_LETTERS := by
        intro isLetter
        have letters : SINGLE_LETTERS.all (fun letter => !isDigit letter) = true := by decide
        have outside := List.all_eq_true.mp letters char isLetter
        rw [digit] at outside
        cases outside
      simp [noLetter]

/-- A unit behind a number is taken off. -/
theorem stripUnitSuffix_digits (nonempty : digits ≠ []) {unit : SizeUnit} {suffix : String}
    (isSuffix : suffix ∈ unit.suffixes) :
    ∃ letter, stripUnitSuffix (digits ++ suffix.toList) = (digits, letter) ∧
      letter.toLower = unit.letter := by
  cases unit with
  | byte =>
      rw [List.mem_singleton.mp isSuffix, String.toList_empty, List.append_nil]
      exact ⟨_, stripUnitSuffix_none all, by decide⟩
  | _ =>
      simp only [SizeUnit.suffixes, List.mem_cons, List.not_mem_nil, or_false] at isSuffix
      rcases isSuffix with rfl | rfl | rfl | rfl
      · exact ⟨_, stripUnitSuffix_single all nonempty (by decide) (by decide), by decide⟩
      · exact ⟨_, stripUnitSuffix_single all nonempty (by decide) (by decide), by decide⟩
      · exact ⟨_, stripUnitSuffix_long all (by decide), by decide⟩
      · exact ⟨_, stripUnitSuffix_long all (by decide), by decide⟩

end Suffix

/-! ## What the parsers read -/

section Floats

variable {value : ℕ} (small : value < 2 ^ 53)

include small

theorem truncate_ofRat_shift {shift : ℤ} (least : -1074 ≤ shift) (most : shift ≤ 900) :
    truncate (Double.ofRat (value * 2 ^ shift)) = .ok ⌊(value : ℚ) * 2 ^ shift⌋ := by
  have bounded : shift ≤ Double.LIMIT - Binary64.PRECISION := by
    simp only [Double.LIMIT, Binary64.PRECISION]
    omega
  rw [truncate, Double.toInt_ofRat_shift small least bounded]

theorem truncate_ofRat : truncate (Double.ofRat value) = .ok value := by
  rw [truncate, Double.toInt_ofRat_natCast small]

theorem truncate_times_1024 :
    truncate ((Double.ofRat value).times 1024) = .ok (value * 1024 : ℕ) := by
  have moved : truncate (Double.ofRat (value * 2 ^ (10 : ℤ))) = _ :=
    truncate_ofRat_shift small (by decide) (by decide)
  have power : (2 : ℚ) ^ (10 : ℤ) = 1024 := by norm_num
  rw [power] at moved
  rw [Double.times_ofRat_natCast small, moved]
  exact congrArg Except.ok (by exact_mod_cast Int.floor_natCast (value * 1024))

theorem truncate_times_1024_times_1024 :
    truncate (((Double.ofRat value).times 1024).times 1024) =
      .ok (value * (1024 * 1024) : ℕ) := by
  have moved : truncate (Double.ofRat (value * 2 ^ (20 : ℤ))) = _ :=
    truncate_ofRat_shift small (by decide) (by decide)
  have once : (Double.ofRat (value * 2 ^ (10 : ℤ))).times 1024 = _ :=
    Double.times_ofRat_shift small (by decide) (by decide) 1024
  have power : (2 : ℚ) ^ (10 : ℤ) = 1024 := by norm_num
  have square : (2 : ℚ) ^ (20 : ℤ) = 1024 * 1024 := by norm_num
  rw [power] at once
  rw [square] at moved
  rw [Double.times_ofRat_natCast small, once, mul_assoc, moved]
  exact congrArg Except.ok (by exact_mod_cast Int.floor_natCast (value * (1024 * 1024)))

theorem truncate_over_1024 :
    truncate ((Double.ofRat value).times (1 / 1024)) = .ok (value / 1024 : ℕ) := by
  have moved : truncate (Double.ofRat (value * 2 ^ (-10 : ℤ))) = _ :=
    truncate_ofRat_shift small (by decide) (by decide)
  have power : (2 : ℚ) ^ (-10 : ℤ) = 1 / 1024 := by norm_num
  rw [power] at moved
  rw [Double.times_ofRat_natCast small, moved, mul_one_div]
  exact congrArg Except.ok (by exact_mod_cast Rat.floor_natCast_div_natCast value 1024)

end Floats

/-- A text that is a number and a unit once its blanks are gone. -/
structure Spells (s : String) (value : ℕ) (unit : SizeUnit) : Prop where
  stripped : ∃ suffix ∈ unit.suffixes,
    (strip s).toList = Nat.toDigits 10 value ++ suffix.toList

section Reading

variable {s : String} {value : ℕ} {unit : SizeUnit} (spells : Spells s value unit)

include spells

theorem Spells.split : (strip s).toList ≠ [] ∧
    ∃ letter, stripUnitSuffix (strip s).toList = (Nat.toDigits 10 value, letter) ∧
      letter.toLower = unit.letter := by
  rcases spells.stripped with ⟨suffix, isSuffix, text⟩
  rw [text]
  constructor
  · simp [Nat.toDigits_ne_nil]
  · exact stripUnitSuffix_digits (fun _ => toDigits_isDigit) Nat.toDigits_ne_nil isSuffix

/-- The megabytes of a size. -/
theorem parseMemoryToMb_of_spells (small : value < 2 ^ 53) :
    parseMemoryToMb s = .ok (value * unit.bytes / 2 ^ 20 : ℕ) := by
  rcases spells.split with ⟨given, letter, split, isLetter⟩
  have read := toF_toDigits value
  unfold parseMemoryToMb
  simp only [if_neg given, split, isLetter]
  cases unit with
  | byte =>
      simp only [SizeUnit.letter]
      rw [toI_toDigits]
      simp [SizeUnit.bytes]
  | kibi =>
      simp only [SizeUnit.letter]
      rw [read, truncate_over_1024 small]
      have same : value / 1024 = value * 2 ^ 10 / 2 ^ 20 := by omega
      rw [same]
      rfl
  | mebi =>
      simp only [SizeUnit.letter]
      rw [read, truncate_ofRat small]
      simp [SizeUnit.bytes]
  | gibi =>
      simp only [SizeUnit.letter]
      rw [read, truncate_times_1024 small]
      have same : value * 1024 = value * 2 ^ 30 / 2 ^ 20 := by omega
      rw [same]
      rfl
  | tebi =>
      simp only [SizeUnit.letter]
      rw [read, truncate_times_1024_times_1024 small]
      have same : value * (1024 * 1024) = value * 2 ^ 40 / 2 ^ 20 := by omega
      rw [same]
      rfl

/-- The gigabytes that the other parser reads: kibibytes count as bytes. -/
theorem parseDiskToGb_of_spells (small : value < 2 ^ 53) :
    parseDiskToGb s =
      .ok (value * (if unit = .kibi then 1 else unit.bytes) / 2 ^ 30 : ℕ) := by
  rcases spells.split with ⟨given, letter, split, isLetter⟩
  have read := toF_toDigits value
  unfold parseDiskToGb
  simp only [if_neg given, split, isLetter]
  cases unit with
  | byte =>
      simp only [SizeUnit.letter]
      rw [toI_toDigits]
      simp [SizeUnit.bytes]
  | kibi =>
      simp only [SizeUnit.letter]
      rw [toI_toDigits]
      simp
  | mebi =>
      simp only [SizeUnit.letter]
      rw [read, truncate_over_1024 small]
      have same : value / 1024 = value * 2 ^ 20 / 2 ^ 30 := by omega
      rw [same]
      rfl
  | gibi =>
      simp only [SizeUnit.letter]
      rw [read, truncate_ofRat small]
      simp [SizeUnit.bytes]
  | tebi =>
      simp only [SizeUnit.letter]
      rw [read, truncate_times_1024 small]
      have same : value * 1024 = value * 2 ^ 40 / 2 ^ 30 := by omega
      rw [same]
      rfl

end Reading

end MultipassWebui.Multipass
