import MultipassWebui.Multipass.Operations
import MultipassWebui.Terminals.Closing

/-!
# Controllers over the client and the audit log

What an action works on, and the audit log.  A request writes at most one row,
under the id that is drawn for it.
-/

namespace MultipassWebui.Web

open MultipassWebui.Effect
open MultipassWebui.Encoding
open MultipassWebui.Multipass
open MultipassWebui.Records

/-- What the actions of a controller work on, and the audit log. -/
structure App (σ : Type) where
  state : σ
  events : List Event

/-- `params[key]` -/
def param (request : Request) (key : String) : Json := (request.params.field? key).getD .null

/-- Whether the path helper of an entry, such as `edit_playbook_path`, accepts the name. -/
def hasPath : Json → Bool
  | .null | .string "" => false
  | _ => true

/-- A computation that leaves the audit log alone. -/
def onState {σ α : Type} (body : Exec σ RubyError α) : Exec (App σ) RubyError α :=
  Exec.zoom App.state (fun state app => { app with state := state }) body

/-- `Event.emit_http!` -/
def emitHttp {σ : Type} (stamp : EventStamp) (request : Request) (category action : String)
    (resource result detail : Option String) : Exec (App σ) RubyError PUnit := do
  let _ ← Exec.zoom App.events (fun events app => { app with events := events })
    (Event.emit stamp (httpAttributes request category action resource result detail))
  return ⟨⟩

/-- `rescue Multipass::Client::CommandError => e` -/
def rescueCommand {σ : Type} (body : Exec σ RubyError PUnit)
    (handler : String → Exec σ RubyError PUnit) : Exec σ RubyError PUnit :=
  Exec.rescue body fun error =>
    match error with
    | .commandError message => some (handler message)
    | _ => none

/-- `rescue ArgumentError => e` -/
def rescueArgument {σ α : Type} (body : Exec σ RubyError α)
    (handler : String → Exec σ RubyError α) :
    Exec σ RubyError α :=
  Exec.rescue body fun error =>
    match error with
    | .argumentError message => some (handler message)
    | _ => none

/-- A value as it is written to a text column. -/
def column (env : Environment) : Json → Option String
  | .null => none
  | value => some (interpolate env value)

/-! ## What the parts of an action do -/

section

variable {σ α : Type} (app : App σ)

theorem onState_apply (body : Exec σ RubyError α) :
    onState body app = ((body app.state).1, { app with state := (body app.state).2 }) :=
  rfl

theorem emitHttp_state {stamp : EventStamp} {request : Request} {category : String}
    (action : String) (resource result detail : Option String) (app : App σ) :
    (emitHttp stamp request category action resource result detail app).2.state = app.state := by
  rw [emitHttp, Exec.bind_state (fun _ _ => rfl)]
  rfl

/-- The clause handles the error, or the outcome of the body stands. -/
theorem rescueArgument_cases (body : Exec σ RubyError α) (handler : String → Exec σ RubyError α)
    (state : σ) :
    rescueArgument body handler state = body state ∨
      ∃ message middle, body state = (.error (.argumentError message), middle) ∧
        rescueArgument body handler state = handler message middle := by
  unfold rescueArgument
  rcases ran : body state with ⟨raised | value, middle⟩
  · rw [Exec.rescue_error ran]
    cases raised with
    | argumentError message => exact Or.inr ⟨message, middle, rfl, rfl⟩
    | _ => exact Or.inl rfl
  · exact Or.inl (Exec.rescue_ok ran _)

/-- The attributes pass the validations of an event. -/
theorem httpAttributes_valid (request : Request) {category : String} (action : String)
    (resource : Option String) {result : String} (detail : Option String)
    (known : CATEGORIES.contains category = true) (final : RESULTS.contains result = true) :
    (httpAttributes request category action resource (some result) detail).errors = [] := by
  simp only [EventAttributes.errors, httpAttributes, List.append_eq_nil_iff, validate_eq_nil_iff,
    Option.all_some]
  exact ⟨⟨known, by decide⟩, final⟩

/-- The drawn id is not in the log. -/
def Fresh (stamp : EventStamp) (events : List Event) : Prop :=
  ∀ event ∈ events, event.id ≠ stamp.id

instance (stamp : EventStamp) (events : List Event) : Decidable (Fresh stamp events) :=
  inferInstanceAs (Decidable (∀ event ∈ events, _))

variable {stamp : EventStamp} (request : Request) {category result : String} (action : String)
  (resource detail : Option String)

/-- A row is appended under an unused id. -/
theorem emitHttp_of_fresh (known : CATEGORIES.contains category = true)
    (final : RESULTS.contains result = true) (fresh : Fresh stamp app.events) :
    emitHttp stamp request category action resource (some result) detail app =
      (.ok ⟨⟩, { app with events := app.events ++
        [⟨httpAttributes request category action resource (some result) detail, stamp.id,
          httpAttributes_valid request action resource detail known final⟩] }) := by
  have emitted := Event.emit_of_fresh
    (httpAttributes_valid request action resource detail known final) fresh
  rw [emitHttp, Exec.bind_apply, Exec.zoom_apply, emitted]
  rfl

/-- Nothing is appended under a used id, and the request ends there. -/
theorem emitHttp_of_used (known : CATEGORIES.contains category = true)
    (final : RESULTS.contains result = true) (used : ¬ Fresh stamp app.events) :
    emitHttp stamp request category action resource (some result) detail app =
      (.error (.recordNotUnique "events.id"), app) := by
  have taken : ∃ event ∈ app.events, event.id = stamp.id := by
    simpa [Fresh] using used
  have emitted := Event.emit_of_used
    (httpAttributes_valid request action resource detail known final) taken
  rw [emitHttp, Exec.bind_apply, Exec.zoom_apply, emitted]

end

end MultipassWebui.Web
