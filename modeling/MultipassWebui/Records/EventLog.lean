import MultipassWebui.Effect.Core
import MultipassWebui.Effect.RubyError
import MultipassWebui.Records.Schema

/-!
# Writing the audit log

`Event.emit!` appends a row under a drawn id.  An invalid row is swallowed; a
drawn id that is already in the table violates the primary key, and that
exception passes through to the caller.
-/

namespace MultipassWebui.Records

open MultipassWebui.Effect
open MultipassWebui.Encoding

/-- What a request brings along. -/
structure Request where
  method : String
  path : String
  /-- `request.params.except(:controller, :action).to_h` -/
  params : Json

/-- The attributes that `emit_http!` builds. -/
def httpAttributes (request : Request) (category action : String)
    (resource result detail : Option String) : EventAttributes where
  category := category
  action := action
  actor := "user"
  resource := resource
  result := result
  detail := detail
  endpoint := some (request.method ++ " " ++ request.path)
  payload := some (.object [("params", request.params)])

namespace Event

/-- `create!` with the id that `assign_id` drew. -/
def create (stamp : EventStamp) (attributes : EventAttributes) :
    Exec (List Event) RubyError (Option Event) := fun events =>
  if valid : attributes.errors = [] then
    if events.any fun event => event.id = stamp.id then
      (.error (.recordNotUnique "events.id"), events)
    else
      (.ok (some ⟨attributes, stamp.id, valid⟩), events ++ [⟨attributes, stamp.id, valid⟩])
  else (.error .recordInvalid, events)

/-- `Event.emit!` -/
def emit (stamp : EventStamp) (attributes : EventAttributes) :
    Exec (List Event) RubyError (Option Event) :=
  if CATEGORIES.contains attributes.category then
    Exec.rescue (create stamp attributes) fun error =>
      if error.isRecordInvalid then some (pure none) else none
  else pure none

section Create

variable {stamp : EventStamp} {attributes : EventAttributes} {events : List Event}

theorem create_of_fresh (valid : attributes.errors = [])
    (fresh : ∀ event ∈ events, event.id ≠ stamp.id) :
    create stamp attributes events =
      (.ok (some ⟨attributes, stamp.id, valid⟩), events ++ [⟨attributes, stamp.id, valid⟩]) := by
  have unused : (events.any fun event => event.id = stamp.id) = false := by
    simpa using fresh
  simp [create, valid, unused]

theorem create_of_used (valid : attributes.errors = [])
    (used : ∃ event ∈ events, event.id = stamp.id) :
    create stamp attributes events = (.error (.recordNotUnique "events.id"), events) := by
  have found : (events.any fun event => event.id = stamp.id) = true := by
    simpa using used
  simp only [create, valid, found, dif_pos, if_true]

theorem create_of_invalid (invalid : attributes.errors ≠ []) :
    create stamp attributes events = (.error .recordInvalid, events) := by
  rw [create, dif_neg invalid]

theorem contains_category (valid : attributes.errors = []) :
    CATEGORIES.contains attributes.category = true := by
  simp only [EventAttributes.errors, List.append_eq_nil_iff, validate_eq_nil_iff] at valid
  exact valid.1.1

/-- A row with valid attributes and an unused id is appended. -/
theorem emit_of_fresh (valid : attributes.errors = [])
    (fresh : ∀ event ∈ events, event.id ≠ stamp.id) :
    emit stamp attributes events =
      (.ok (some ⟨attributes, stamp.id, valid⟩), events ++ [⟨attributes, stamp.id, valid⟩]) := by
  rw [emit, if_pos (contains_category valid)]
  exact Exec.rescue_ok (create_of_fresh valid fresh) _

/-- A used id leaves the log alone, and the exception reaches the caller. -/
theorem emit_of_used (valid : attributes.errors = [])
    (used : ∃ event ∈ events, event.id = stamp.id) :
    emit stamp attributes events = (.error (.recordNotUnique "events.id"), events) := by
  rw [emit, if_pos (contains_category valid)]
  exact Exec.rescue_error (create_of_used valid used) _

/-- An invalid row is swallowed. -/
theorem emit_of_invalid (invalid : attributes.errors ≠ []) :
    emit stamp attributes events = (.ok none, events) := by
  unfold emit
  split_ifs
  · exact Exec.rescue_error (create_of_invalid invalid) _
  · rfl

end Create

/-- Whatever happens, the log is kept or extended by one row with the drawn id. -/
theorem emit_log (stamp : EventStamp) (attributes : EventAttributes) (events : List Event) :
    (emit stamp attributes events).2 = events ∨
      ∃ event : Event, event.toEventAttributes = attributes ∧ event.id = stamp.id ∧
        (emit stamp attributes events).2 = events ++ [event] := by
  by_cases valid : attributes.errors = []
  · by_cases used : ∃ event ∈ events, event.id = stamp.id
    · left
      rw [emit_of_used valid used]
    · right
      have fresh : ∀ event ∈ events, event.id ≠ stamp.id := by simpa using used
      exact ⟨_, rfl, rfl, congrArg Prod.snd (emit_of_fresh valid fresh)⟩
  · left
    rw [emit_of_invalid valid]

/-! ## Any arguments -/

/-- The arguments of `Event.emit!` as they are passed: any of them may be `nil`. -/
structure Arguments where
  category : Option String
  action : Option String
  actor : Option String
  resource : Option String
  result : Option String
  detail : Option String
  endpoint : Option String
  payload : Option Json

/-- A text is on a list. -/
def included (list : List String) : Option String → Bool
  | none => false
  | some text => list.contains text

/-- The arguments pass the filter of categories and the validations. -/
def Arguments.accepted (arguments : Arguments) : Bool :=
  included CATEGORIES arguments.category && included ACTORS arguments.actor &&
    arguments.result.all fun result => RESULTS.contains result

/-- `Event.emit!`; a missing category is on no list, a missing actor is invalid, and
a missing action violates the constraint of its column. -/
def emitAny (stamp : EventStamp) (arguments : Arguments) :
    Exec (List Event) RubyError (Option Event) :=
  match arguments.category, arguments.actor, arguments.action with
  | some category, some actor, some action =>
      emit stamp
        { category, action, actor, resource := arguments.resource, result := arguments.result,
          detail := arguments.detail, endpoint := arguments.endpoint, payload := arguments.payload }
  | _, _, _ =>
      if arguments.accepted then
        Exec.raise (.standardError "NOT NULL constraint failed: events.action")
      else pure none

/-- One row with an id not used before is appended and returned, or nothing is. -/
def WriterContract (events : List Event) (outcome : Except RubyError (Option Event))
    (after : List Event) : Prop :=
  (∃ event, outcome = .ok (some event) ∧ after = events ++ [event] ∧
    ∀ old ∈ events, old.id ≠ event.id) ∨ outcome = .ok none ∧ after = events

theorem not_writerContract_error (events after : List Event) (raised : RubyError) :
    ¬ WriterContract events (.error raised) after := by
  rintro (⟨_, same, _⟩ | ⟨same, _⟩) <;> cases same

section Contract

variable {stamp : EventStamp} {events : List Event}

theorem emit_writerContract_iff (attributes : EventAttributes) :
    WriterContract events (emit stamp attributes events).1 (emit stamp attributes events).2 ↔
      attributes.errors ≠ [] ∨ ∀ event ∈ events, event.id ≠ stamp.id := by
  by_cases valid : attributes.errors = []
  · by_cases used : ∃ event ∈ events, event.id = stamp.id
    · rw [emit_of_used valid used]
      apply iff_of_false (not_writerContract_error _ _ _)
      rintro (invalid | fresh)
      · exact invalid valid
      · obtain ⟨event, member, same⟩ := used
        exact fresh event member same
    · have fresh : ∀ event ∈ events, event.id ≠ stamp.id := by simpa using used
      rw [emit_of_fresh valid fresh]
      exact iff_of_true (Or.inl ⟨_, rfl, rfl, fresh⟩) (Or.inr fresh)
  · rw [emit_of_invalid valid]
    exact iff_of_true (Or.inr ⟨rfl, rfl⟩) (Or.inl valid)

/-- The writer keeps its contract precisely if it rejects the arguments, or it is
given an action and the id it draws is not in the table. -/
theorem emitAny_writerContract_iff (arguments : Arguments) :
    WriterContract events (emitAny stamp arguments events).1 (emitAny stamp arguments events).2 ↔
      arguments.accepted = false ∨
        arguments.action ≠ none ∧ ∀ event ∈ events, event.id ≠ stamp.id := by
  obtain ⟨category, action, actor, resource, result, detail, endpoint, payload⟩ := arguments
  unfold emitAny Arguments.accepted
  cases category with
  | none => exact iff_of_true (Or.inr ⟨rfl, rfl⟩) (Or.inl rfl)
  | some category =>
      cases actor with
      | none =>
          have rejected : (included CATEGORIES (some category) && included ACTORS none &&
              result.all fun result => RESULTS.contains result) = false := by
            simp [included]
          simp only [rejected]
          exact iff_of_true (Or.inr ⟨rfl, rfl⟩) (Or.inl trivial)
      | some actor =>
          cases action with
          | some action =>
              simp only [emit_writerContract_iff, EventAttributes.errors, included]
              rw [ne_eq, List.append_eq_nil_iff, List.append_eq_nil_iff, validate_eq_nil_iff,
                validate_eq_nil_iff, validate_eq_nil_iff, ← Bool.and_eq_true, ← Bool.and_eq_true,
                Bool.not_eq_true]
              simp
          | none =>
              by_cases accepted : (included CATEGORIES (some category) &&
                  included ACTORS (some actor) &&
                  result.all fun result => RESULTS.contains result) = true
              · simp only [accepted, if_true]
                apply iff_of_false (not_writerContract_error _ _ _)
                rintro (rejected | ⟨given, _⟩)
                · cases rejected
                · exact given rfl
              · rw [Bool.not_eq_true] at accepted
                simp only [accepted, Bool.false_eq_true, if_false]
                exact iff_of_true (Or.inr ⟨rfl, rfl⟩) (Or.inl trivial)

end Contract

end Event

end MultipassWebui.Records
