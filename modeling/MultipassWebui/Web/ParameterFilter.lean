import MultipassWebui.Terminals.Closing

/-!
# Filtered parameters

`config.filter_parameters`, and what `ActiveSupport::ParameterFilter` makes of
the parameters of a request: the value of a key that one of the words is part of
is masked, at any depth.
-/

namespace MultipassWebui.Web

open MultipassWebui.Encoding
open MultipassWebui.Records (Request)

/-- `config.filter_parameters` -/
def FILTER_PARAMETERS : List String :=
  ["passw", "email", "secret", "token", "_key", "crypt", "salt", "certificate", "otp", "ssn",
    "cvv", "cvc"]

/-- What a character is without regard to case.  Apart from the ASCII letters,
these are the characters that equal letters of the words. -/
def folded (char : Char) : List Char :=
  if char.toNat = 0x17F then ['s']
  else if char.toNat = 0x212A then ['k']
  else if char.toNat = 0xDF || char.toNat = 0x1E9E then ['s', 's']
  else if char.toNat = 0xFB01 then ['f', 'i']
  else [char.toLower]

/-- The characters begin with the word, without regard to case. -/
def beginsWith : List Char → List Char → Bool
  | [], _ => true
  | _ :: _, [] => false
  | word, char :: rest =>
      (folded char).isPrefixOf word && beginsWith (word.drop (folded char).length) rest

/-- `Regexp.new(word, Regexp::IGNORECASE).match?(key)` -/
def matchesWord (word key : String) : Bool :=
  key.toList.tails.any (beginsWith word.toList)

/-- The values under the key are filtered. -/
def filtered (key : String) : Bool := FILTER_PARAMETERS.any fun word => matchesWord word key

/-- `MASK` -/
def FILTERED : Json := .string "[FILTERED]"

mutual

/-- `ParameterFilter#filter` -/
def filterValue : Json → Json
  | .object fields => .object (filterFields fields)
  | .array items => .array (filterItems items)
  | .null => .null
  | .bool value => .bool value
  | .number value => .number value
  | .string text => .string text

def filterItems : List Json → List Json
  | [] => []
  | item :: rest => filterValue item :: filterItems rest

def filterField : String × Json → String × Json
  | (key, value) => (key, if filtered key then FILTERED else filterValue value)

def filterFields : List (String × Json) → List (String × Json)
  | [] => []
  | field :: rest => filterField field :: filterFields rest

end

/-- The requests are equal except for the values of filtered parameters. -/
structure SameButFiltered (first second : Request) : Prop where
  method : first.method = second.method
  path : first.path = second.path
  params : filterValue first.params = filterValue second.params

/-- Requests that agree on the filtered values as well are equal. -/
theorem SameButFiltered.eq_iff {first second : Request} (same : SameButFiltered first second) :
    first = second ↔ first.params = second.params := by
  rcases first with ⟨method, path, params⟩
  rcases second with ⟨otherMethod, otherPath, otherParams⟩
  simp only [Request.mk.injEq]
  constructor
  · rintro ⟨_, _, equal⟩
    exact equal
  · intro equal
    exact ⟨same.method, same.path, equal⟩

example : filtered "password" = true ∧ filtered "ssh_private_key" = true ∧
    filtered "Paßword" = true ∧ filtered "name" = false := by decide +kernel

end MultipassWebui.Web
