import Mathlib.Data.Rat.Defs

/-!
# JSON values
-/

namespace MultipassWebui.Encoding

/-- A JSON document; objects keep the order of their keys. -/
inductive Json where
  | null
  | bool (value : Bool)
  | number (value : Rat)
  | string (text : String)
  | array (items : List Json)
  | object (fields : List (String × Json))
  deriving Repr

namespace Json

/-- `fetch(key)` of a document: absent on anything but an object with the key. -/
def field? (key : String) : Json → Option Json
  | object fields => (fields.find? fun field => field.1 = key).map Prod.snd
  | _ => none

/-- The text of a value that is a text. -/
def text? : Json → Option String
  | string text => some text
  | _ => none

/-- A text that may be absent. -/
def orNull (text : Option String) : Json := (text.map string).getD null

/-! ## Equality -/

mutual

/-- `eql?` of two values. -/
def eql : Json → Json → Bool
  | null, null => true
  | bool value, bool other => value = other
  | number value, number other => value = other
  | string text, string other => text = other
  | array items, array others => eqlItems items others
  | object fields, object others => eqlFields fields others
  | _, _ => false

def eqlItems : List Json → List Json → Bool
  | [], [] => true
  | item :: items, other :: others => eql item other && eqlItems items others
  | _, _ => false

def eqlFields : List (String × Json) → List (String × Json) → Bool
  | [], [] => true
  | (key, value) :: fields, (other, second) :: others =>
      key = other && eql value second && eqlFields fields others
  | _, _ => false

end

mutual

theorem eql_iff : ∀ value other : Json, eql value other = true ↔ value = other
  | null, other | bool _, other | number _, other | string _, other => by
      cases other <;> simp [eql]
  | array items, other => by
      cases other with
      | array others => simp [eql, eqlItems_iff items others]
      | _ => simp [eql]
  | object fields, other => by
      cases other with
      | object others => simp [eql, eqlFields_iff fields others]
      | _ => simp [eql]

theorem eqlItems_iff : ∀ items others : List Json, eqlItems items others = true ↔ items = others
  | [], [] => by simp [eqlItems]
  | [], _ :: _ => by simp [eqlItems]
  | _ :: _, [] => by simp [eqlItems]
  | item :: items, other :: others => by
      simp [eqlItems, eql_iff item other, eqlItems_iff items others]

theorem eqlFields_iff : ∀ fields others : List (String × Json),
    eqlFields fields others = true ↔ fields = others
  | [], [] => by simp [eqlFields]
  | [], _ :: _ => by simp [eqlFields]
  | _ :: _, [] => by simp [eqlFields]
  | (key, value) :: fields, (other, second) :: others => by
      simp [eqlFields, eql_iff value second, eqlFields_iff fields others]

end

instance decidableEqJson : DecidableEq Json := fun value other =>
  decidable_of_iff _ (eql_iff value other)
end Json

end MultipassWebui.Encoding
