import MultipassWebui.Web.Application

/-!
# What a request writes to the audit log

A program records a request if it appends one row under an unused id, and
nothing otherwise.  What the row says comes out of the steps before it; the rules
below follow the program.
-/

namespace MultipassWebui.Web

open MultipassWebui.Effect
open MultipassWebui.Encoding
open MultipassWebui.Records

/-- The arguments of `emit_http!`, apart from the request. -/
structure AuditEntry where
  category : String
  action : String
  resource : Option String
  result : String
  detail : Option String
  deriving DecidableEq, Repr

/-- The row for a request. -/
def AuditEntry.attributes (entry : AuditEntry) (request : Request) : EventAttributes :=
  httpAttributes request entry.category entry.action entry.resource (some entry.result)
    entry.detail

/-- Every row holds the parameters of its request as they came. -/
theorem AuditEntry.params_eq {entry other : AuditEntry} {first second : Request}
    (same : entry.attributes first = other.attributes second) : first.params = second.params := by
  have payload := congrArg EventAttributes.payload same
  simp only [attributes, httpAttributes, Option.some.injEq, Json.object.injEq, List.cons.injEq,
    Prod.mk.injEq, true_and, and_true] at payload
  exact payload

section

variable {σ α β γ : Type}

/-- The attributes of the rows that a program appends: the rows up to their ids. -/
def appended (program : Exec (App σ) RubyError α) (app : App σ) : List EventAttributes :=
  ((program app).2.events.drop app.events.length).map Event.toEventAttributes

/-- The program appends the row that its steps ask for, if the drawn id is unused,
and returns then; in any other case it appends nothing. -/
structure Recording (request : Request) (stamp : EventStamp)
    (program : Exec (App σ) RubyError α) (app : App σ) (Asks : AuditEntry → Prop) : Prop where
  row : ∀ entry, Asks entry → Fresh stamp app.events →
    (∃ event : Event, event.toEventAttributes = entry.attributes request ∧
      (program app).2.events = app.events ++ [event]) ∧
    ∃ value, (program app).1 = .ok value
  otherwise : (∀ entry, Asks entry → ¬ Fresh stamp app.events) → (program app).2.events = app.events

/-- Two steps on the state are one. -/
theorem onState_bind_onState (first : Exec σ RubyError α) (second : α → Exec σ RubyError β)
    (next : β → Exec (App σ) RubyError γ) :
    (onState first >>= fun value => onState (second value) >>= next) =
      onState (first >>= second) >>= next := by
  funext app
  rw [Exec.bind_apply, Exec.bind_apply, onState_apply, onState_apply, Exec.bind_apply]
  rcases first app.state with ⟨raised | value, middle⟩
  · rfl
  · rfl

theorem ofExcept_bind_onState (first : Except RubyError α) (second : α → Exec σ RubyError β)
    (next : β → Exec (App σ) RubyError γ) :
    (Exec.ofExcept first >>= fun value => onState (second value) >>= next) =
      onState (Exec.ofExcept first >>= second) >>= next := by
  funext app
  cases first with
  | error raised => rfl
  | ok value => rfl

variable {request : Request} {stamp : EventStamp} {app : App σ}
variable {program : Exec (App σ) RubyError α} {Asks Other : AuditEntry → Prop}

/-- A row with a known category and result is appended, or the drawn id is used. -/
theorem emitHttp_cases {entry : AuditEntry} (known : CATEGORIES.contains entry.category = true)
    (final : RESULTS.contains entry.result = true) :
    (Fresh stamp app.events ∧ ∃ event : Event,
      event.toEventAttributes = entry.attributes request ∧
      emitHttp stamp request entry.category entry.action entry.resource (some entry.result)
        entry.detail app = (.ok ⟨⟩, { app with events := app.events ++ [event] })) ∨
    (¬ Fresh stamp app.events ∧
      emitHttp stamp request entry.category entry.action entry.resource (some entry.result)
        entry.detail app = (.error (.recordNotUnique "events.id"), app)) := by
  by_cases fresh : Fresh stamp app.events
  · exact Or.inl ⟨fresh, _, rfl, emitHttp_of_fresh app request _ _ _ known final fresh⟩
  · exact Or.inr ⟨fresh, emitHttp_of_used app request _ _ _ known final fresh⟩

/-- A failed insertion is no failed command. -/
theorem emitHttp_ne_commandError {entry : AuditEntry}
    (known : CATEGORIES.contains entry.category = true)
    (final : RESULTS.contains entry.result = true) (message : String) (after : App σ) :
    emitHttp stamp request entry.category entry.action entry.resource (some entry.result)
      entry.detail app ≠ (.error (.commandError message), after) := by
  rcases @emitHttp_cases _ request stamp app entry known final with
    ⟨_, _, _, emitted⟩ | ⟨_, emitted⟩
  · rw [emitted]
    intro same
    cases congrArg Prod.fst same
  · rw [emitted]
    intro same
    cases congrArg Prod.fst same

namespace Recording

theorem of_iff (recording : Recording request stamp program app Asks)
    (same : ∀ entry, Asks entry ↔ Other entry) : Recording request stamp program app Other := by
  constructor
  · intro entry asked fresh
    exact recording.row entry ((same entry).mpr asked) fresh
  · intro silent
    exact recording.otherwise fun entry asked => silent entry ((same entry).mp asked)

/-- A program that leaves the log alone. -/
theorem quiet (kept : (program app).2.events = app.events) :
    Recording request stamp program app fun _ => False :=
  ⟨fun _ never => never.elim, fun _ => kept⟩

/-- The program goes on as another one. -/
theorem of_apply {other : Exec (App σ) RubyError α} {middle : App σ}
    (recording : Recording request stamp other middle Asks)
    (same : program app = other middle) (kept : middle.events = app.events) :
    Recording request stamp program app Asks := by
  constructor
  · intro entry asked fresh
    rw [same, ← kept]
    rw [← kept] at fresh
    exact recording.row entry asked fresh
  · intro silent
    rw [same, ← kept]
    rw [← kept] at silent
    exact recording.otherwise silent

/-- `emit_http!` -/
theorem emitHttp {entry : AuditEntry} (known : CATEGORIES.contains entry.category = true)
    (final : RESULTS.contains entry.result = true) :
    Recording request stamp (Web.emitHttp stamp request entry.category entry.action entry.resource
      (some entry.result) entry.detail) app fun asked => asked = entry := by
  rcases @emitHttp_cases _ request stamp app entry known final with
    ⟨fresh, event, attributes, emitted⟩ | ⟨used, emitted⟩
  · constructor
    · intro asked isEntry _
      rw [isEntry, emitted]
      exact ⟨⟨event, attributes, rfl⟩, ⟨⟩, rfl⟩
    · intro silent
      exact absurd fresh (silent entry rfl)
  · constructor
    · intro _ _ fresh
      exact absurd fresh used
    · intro _
      rw [emitted]

/-- A step that leaves the log alone comes first. -/
theorem bind {first : Exec (App σ) RubyError β} {next : β → Exec (App σ) RubyError α}
    {Asks : β → AuditEntry → Prop} (kept : (first app).2.events = app.events)
    (rest : ∀ value, (first app).1 = .ok value →
      Recording request stamp (next value) (first app).2 (Asks value)) :
    Recording request stamp (first >>= next) app fun entry =>
      ∃ value, (first app).1 = .ok value ∧ Asks value entry := by
  rcases ran : first app with ⟨raised | value, middle⟩
  · refine (quiet ?_).of_iff ?_
    · rw [Exec.bind_error ran, ← kept, ran]
    · intro entry
      exact iff_of_false id fun ⟨_, isOk, _⟩ => nomatch isOk
  · have later := rest value (congrArg Prod.fst ran)
    rw [ran] at kept later
    refine (later.of_apply (Exec.bind_ok ran next) kept).of_iff fun entry => ?_
    constructor
    · intro asked
      exact ⟨value, rfl, asked⟩
    · rintro ⟨other, isOk, asked⟩
      rcases Except.ok.inj isOk with rfl
      exact asked

theorem onState_bind {body : Exec σ RubyError β} {next : β → Exec (App σ) RubyError α}
    {Asks : β → AuditEntry → Prop}
    (rest : ∀ value, (body app.state).1 = .ok value →
      Recording request stamp (next value) { app with state := (body app.state).2 } (Asks value)) :
    Recording request stamp (onState body >>= next) app fun entry =>
      ∃ value, (body app.state).1 = .ok value ∧ Asks value entry :=
  bind rfl rest

/-- A reply comes last. -/
theorem bind_pure (recording : Recording request stamp program app Asks) (reply : α → β) :
    Recording request stamp (program >>= fun value => pure (reply value)) app Asks := by
  have log : ((program >>= fun value => pure (reply value)) app).2 = (program app).2 :=
    Exec.bind_state (fun _ _ => rfl) app
  constructor
  · intro entry asked fresh
    rcases recording.row entry asked fresh with ⟨event, value, returned⟩
    refine ⟨by rw [log]; exact event, reply value, ?_⟩
    rw [Exec.bind_pure_apply, returned]
    rfl
  · intro silent
    rw [log]
    exact recording.otherwise silent

/-- A program that raises has appended nothing. -/
theorem kept_of_raised {raised : RubyError} {middle : App σ}
    (recording : Recording request stamp program app Asks)
    (ran : program app = (.error raised, middle)) :
    (∀ entry, Asks entry → ¬ Fresh stamp app.events) ∧ middle.events = app.events := by
  have silent : ∀ entry, Asks entry → ¬ Fresh stamp app.events := by
    intro entry asked fresh
    rcases recording.row entry asked fresh with ⟨_, value, returned⟩
    rw [ran] at returned
    cases returned
  have kept := recording.otherwise silent
  rw [ran] at kept
  exact ⟨silent, kept⟩

/-- A `rescue` clause that leaves the log alone. -/
theorem rescue {handler : RubyError → Option (Exec (App σ) RubyError α)}
    (recording : Recording request stamp program app Asks)
    (quiet : ∀ raised middle clause, program app = (.error raised, middle) →
      handler raised = some clause → (clause middle).2.events = middle.events) :
    Recording request stamp (Exec.rescue program handler) app Asks := by
  rcases ran : program app with ⟨raised | value, middle⟩
  · rcases recording.kept_of_raised ran with ⟨silent, kept⟩
    have log : (Exec.rescue program handler app).2.events = app.events := by
      rw [Exec.rescue_error ran]
      cases handled : handler raised with
      | none => exact kept
      | some clause => exact (quiet raised middle clause ran handled).trans kept
    constructor
    · intro entry asked fresh
      exact absurd fresh (silent entry asked)
    · intro _
      exact log
  · exact recording.of_apply ((Exec.rescue_ok ran _).trans ran.symm) rfl

/-- A step that is recorded if it succeeds, and if a command of it fails. -/
theorem attempt {body : Exec σ RubyError β} {success : β → AuditEntry}
    {failure : String → AuditEntry}
    {handler : RubyError → Option (Exec (App σ) RubyError PUnit)}
    (known : ∀ value, CATEGORIES.contains (success value).category = true)
    (final : ∀ value, RESULTS.contains (success value).result = true)
    (knownFailure : ∀ message, CATEGORIES.contains (failure message).category = true)
    (finalFailure : ∀ message, RESULTS.contains (failure message).result = true)
    (failed : ∀ message, handler (.commandError message) =
      some (Web.emitHttp stamp request (failure message).category (failure message).action
        (failure message).resource (some (failure message).result) (failure message).detail))
    (quiet : ∀ raised clause, (∀ message, raised ≠ .commandError message) →
      handler raised = some clause → ∀ middle : App σ, (clause middle).2.events = middle.events) :
    Recording request stamp
      (Exec.rescue (onState body >>= fun value => Web.emitHttp stamp request
        (success value).category (success value).action (success value).resource
        (some (success value).result) (success value).detail) handler) app fun entry =>
      (∃ value, (body app.state).1 = .ok value ∧ entry = success value) ∨
        ∃ message, (body app.state).1 = .error (.commandError message) ∧
          entry = failure message := by
  have recording : Recording request stamp (onState body >>= fun value => Web.emitHttp stamp request
      (success value).category (success value).action (success value).resource
      (some (success value).result) (success value).detail) app fun entry =>
      ∃ value, (body app.state).1 = .ok value ∧ entry = success value :=
    onState_bind fun value _ => emitHttp (known value) (final value)
  cases outcome : (body app.state).1 with
  | ok value =>
      have returned : onState body app = (.ok value, { app with state := (body app.state).2 }) := by
        rw [onState_apply, outcome]
      refine (recording.rescue fun raised middle clause ran handled => ?_).of_iff fun entry => ?_
      · refine quiet raised clause ?_ handled middle
        rintro message rfl
        rw [Exec.bind_ok returned] at ran
        exact emitHttp_ne_commandError (known value) (final value) message middle ran
      · rw [outcome]
        simp
  | error raised =>
      have ran : onState body app = (.error raised, { app with state := (body app.state).2 }) := by
        rw [onState_apply, outcome]
      by_cases command : ∃ message, raised = .commandError message
      · rcases command with ⟨message, rfl⟩
        have written := @emitHttp _ request stamp { app with state := (body app.state).2 }
          (failure message) (knownFailure message) (finalFailure message)
        have kept : ({ app with state := (body app.state).2 } : App σ).events = app.events := rfl
        refine (written.of_apply ?_ kept).of_iff fun entry => ?_
        · rw [Exec.rescue_error (Exec.bind_error ran _), failed message]
        · simp
      · refine (recording.rescue fun other middle clause program handled => ?_).of_iff
          fun entry => ?_
        · refine quiet other clause ?_ handled middle
          rintro message rfl
          rw [Exec.bind_error ran] at program
          rcases Except.error.inj (congrArg Prod.fst program) with rfl
          exact command ⟨message, rfl⟩
        · rw [outcome]
          constructor
          · intro asked
            exact Or.inl asked
          · rintro (asked | ⟨message, isCommand, _⟩)
            · exact asked
            · exact absurd ⟨message, Except.error.inj isCommand⟩ command

/-! ## Two runs -/

theorem appended_eq_singleton (recording : Recording request stamp program app Asks)
    {entry : AuditEntry} (asked : Asks entry) (fresh : Fresh stamp app.events) :
    appended program app = [entry.attributes request] := by
  rcases (recording.row entry asked fresh).1 with ⟨event, attributes, log⟩
  rw [appended, log, List.drop_left, List.map_singleton, attributes]

theorem appended_eq_nil (recording : Recording request stamp program app Asks)
    (silent : ¬ (Fresh stamp app.events ∧ ∃ entry, Asks entry)) : appended program app = [] := by
  have log := recording.otherwise fun entry asked fresh => silent ⟨fresh, entry, asked⟩
  rw [appended, log, List.drop_length, List.map_nil]

end Recording

end

end MultipassWebui.Web
