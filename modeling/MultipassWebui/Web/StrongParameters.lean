import MultipassWebui.Migration.Import
import MultipassWebui.Records.Database
import MultipassWebui.Web.Application

/-!
# Permitted parameters and the rows they are assigned to

`params.require(…).permit(…)`, and the saving of a row of a table whose key is
its `id_slug`.  Keys with the suffix of a multi-parameter attribute are left out.
-/

namespace MultipassWebui.Web

open MultipassWebui.Effect
open MultipassWebui.Encoding
open MultipassWebui.Records (FieldError)
open MultipassWebui.Records.Rows (updateWhere)
open MultipassWebui.Records (Request)

/-! ## Parameters -/

/-- The parameters that were permitted, by their keys. -/
abbrev Permitted := List (String × Json)

/-- A value that `permit` lets through for a plain key. -/
def isScalar : Json → Bool
  | .array _ | .object _ => false
  | _ => true

/-- A value that `permit` lets through for `key: []`. -/
def isScalarList : Json → Bool
  | .array items => items.all isScalar
  | _ => false

/-- `permit(*scalars, **lists)` -/
def permit (scalars lists : List String) : Json → Except RubyError Permitted
  | .object fields => .ok (fields.filter fun field =>
      scalars.contains field.1 && isScalar field.2 ||
        lists.contains field.1 && isScalarList field.2)
  | _ => .error (.noMethodError "permit")

/-- `params.require(key).permit(*scalars, **lists)` -/
def requirePermit (request : Request) (key : String) (scalars lists : List String) :
    Except RubyError Permitted :=
  match param request key with
  | .bool false => .error (.noMethodError "permit")
  | value =>
      if Value.present value then permit scalars lists value
      else .error (.keyError ("param is missing or the value is empty or invalid: " ++ key))

namespace Permitted

/-- `p[key]` -/
def get (p : Permitted) (key : String) : Json := (p.lookup key).getD .null

/-- `p[key] = value` -/
def put (p : Permitted) (key : String) (value : Json) : Permitted :=
  (key, value) :: p.filter fun field => field.1 ≠ key

/-- `p.delete(key)` -/
def delete (p : Permitted) (key : String) : Permitted := p.filter fun field => field.1 ≠ key

/-- The column after the assignment: the cast value if there is one. -/
def assign {α : Type} (p : Permitted) (key : String) (cast : Json → α) (column : α) : α :=
  ((p.lookup key).map cast).getD column

/-- `p[key]`, a list or nothing. -/
def items (p : Permitted) (key : String) : List Json :=
  match p.lookup key with
  | some (.array items) => items
  | _ => []

end Permitted

/-! ## Rows -/

section

variable {ρ : Type} (key : ρ → String) (errors : ρ → List FieldError)

/-- `find(id)` -/
def findRow (id : String) : Exec (List ρ) RubyError ρ := do
  match ← Exec.gets fun rows => rows.find? fun row => key row = id with
  | some row => return row
  | none => Exec.raise .recordNotFound

/-- `save` of a new row, if it returns true; `stored` is what writing the columns
raises. -/
def saveNew (stored : ρ → Except RubyError PUnit) (row : ρ) :
    Exec (List ρ) RubyError (Option ρ) := do
  let rows ← Exec.gets id
  if (errors row).isEmpty && rows.all fun other => key other ≠ key row then do
    Exec.ofExcept (stored row)
    Exec.modify fun rows => rows ++ [row]
    return some row
  else return none

/-- `update` of a row, if it returns true. -/
def saveChanged (stored : ρ → Except RubyError PUnit) (row : ρ) :
    Exec (List ρ) RubyError (Option ρ) :=
  if (errors row).isEmpty then do
    Exec.ofExcept (stored row)
    Exec.modify (updateWhere (fun other => key other = key row) fun _ => row)
    return some row
  else pure none

/-- `destroy` -/
def destroyRow (row : ρ) : Exec (List ρ) RubyError PUnit :=
  Exec.modify fun rows => rows.filter fun other => key other ≠ key row

variable {key errors} {stored : ρ → Except RubyError PUnit} {row : ρ} {rows : List ρ}

/-- A row without errors under an unused key is saved if its values fit the columns. -/
theorem saveNew_of_valid (valid : errors row = []) (unused : ∀ other ∈ rows, key other ≠ key row)
    (fits : stored row = .ok ⟨⟩) :
    saveNew key errors stored row rows = (.ok (some row), rows ++ [row]) := by
  have accepted : ((errors row).isEmpty && rows.all fun other => key other ≠ key row) = true := by
    rw [valid, List.isEmpty_nil, Bool.true_and, List.all_eq_true]
    intro other member
    exact decide_eq_true (unused other member)
  rw [saveNew, Exec.bind_ok (Exec.gets_apply id rows), id, if_pos accepted, fits]
  rfl

/-- Any other row changes nothing. -/
theorem saveNew_of_invalid
    (invalid : ¬ (errors row = [] ∧ ∀ other ∈ rows, key other ≠ key row)) :
    saveNew key errors stored row rows = (.ok none, rows) := by
  have refused : ¬ ((errors row).isEmpty && rows.all fun other => key other ≠ key row) = true := by
    rw [Bool.and_eq_true, List.isEmpty_iff, List.all_eq_true]
    rintro ⟨valid, unused⟩
    exact invalid ⟨valid, fun other member => of_decide_eq_true (unused other member)⟩
  rw [saveNew, Exec.bind_ok (Exec.gets_apply id rows), id, if_neg refused]
  rfl

end

end MultipassWebui.Web
