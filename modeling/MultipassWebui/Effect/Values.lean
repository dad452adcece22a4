import Mathlib.Data.List.Infix
import MultipassWebui.Effect.RubyError
import MultipassWebui.Encoding.Json
import MultipassWebui.Text.Strings

/-!
# Ruby values

A value that comes from a request or from a document can be of any type, and
the code finds out by sending it a message.  The messages that the modelled
code sends, with the exceptions of the types that do not answer them.
-/

namespace MultipassWebui.Effect.Value

open MultipassWebui.Encoding
open MultipassWebui.Text

/-- Everything but `nil` and `false` is true. -/
def truthy : Json → Bool
  | .null | .bool false => false
  | _ => true

/-- `present?` -/
def present : Json → Bool
  | .null | .bool false => false
  | .string text => !blank text
  | .array items => !items.isEmpty
  | .object fields => !fields.isEmpty
  | .bool true | .number _ => true

/-- `presence` -/
def presence (value : Json) : Json := if present value then value else .null

/-- `value.nil? || value.empty?` -/
def nilOrEmpty : Json → Except RubyError Bool
  | .null => .ok true
  | .string text => .ok (text = "")
  | .array items => .ok items.isEmpty
  | .object fields => .ok fields.isEmpty
  | .bool _ | .number _ => .error (.noMethodError "empty?")

/-- `value && !value.empty?` -/
def givenAndNotEmpty (value : Json) : Except RubyError Bool :=
  if truthy value then (nilOrEmpty value).map not else .ok false

/-- A value where a text is needed. -/
def requireText : Json → Except RubyError String
  | .string text => .ok text
  | _ => .error (.typeError "no implicit conversion into String")

/-- `to_i` -/
def toI : Json → Except RubyError Int
  | .null => .ok 0
  | .string text => .ok (Text.toI text.toList)
  | .number value => .ok (value.num.tdiv value.den)
  | .bool _ | .array _ | .object _ => .error (.noMethodError "to_i")

/-- `value || default` -/
def orDefault (value default : Json) : Json := if truthy value then value else default

/-- `value[key]` with a text for the key; a text answers with the part that was
asked for. -/
def index (key : String) : Json → Except RubyError Json
  | .object fields => .ok (((fields.find? fun field => field.1 = key).map Prod.snd).getD .null)
  | .string text => .ok (if key.toList <:+: text.toList then .string key else .null)
  | .array _ | .number _ => .error (.typeError "no implicit conversion of String into Integer")
  | .null | .bool _ => .error (.noMethodError "[]")

/-- What `value&.each` passes to its block; an object passes pairs. -/
def elements : Json → Except RubyError (List Json)
  | .null => .ok []
  | .array items => .ok items
  | .object fields => .ok (fields.map fun field => .array [.string field.1, field.2])
  | .bool _ | .number _ | .string _ => .error (.noMethodError "each")

/-- What a block with two parameters makes of an element. -/
def pair : Json → Json × Json
  | .array [] => (.null, .null)
  | .array [first] => (first, .null)
  | .array (first :: second :: _) => (first, second)
  | value => (value, .null)

end MultipassWebui.Effect.Value
