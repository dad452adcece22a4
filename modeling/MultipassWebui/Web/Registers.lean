import MultipassWebui.Web.ConfigurationControllers

/-!
# The names in a table after an action

An action of the configuration that writes a row to the audit log names the row
that it created, changed or deleted.  What it does to the list of the names in
its table follows from that name; without a name the list stays as it is.
-/

namespace MultipassWebui.Web

open MultipassWebui.Auth (Store)
open MultipassWebui.Effect
open MultipassWebui.Encoding
open MultipassWebui.Records
open MultipassWebui.Records.Rows (updateWhere)

/-! ## Changes of a list of names -/

def enterName (name : String) (names : List String) : List String := names ++ [name]

def strikeName (name : String) (names : List String) : List String :=
  names.filter fun other => other ≠ name

def keepNames (_ : String) (names : List String) : List String := names

section

variable {σ α : Type}

/-- The name that is returned tells how the names in the state change. -/
structure Moves (I : σ → Prop) (names : σ → List String)
    (change : String → List String → List String) (body : Exec σ RubyError (Option String)) :
    Prop where
  named : ∀ state, I state → ∀ name, (body state).1 = .ok (some name) →
    names (body state).2 = change name (names state)
  unnamed : ∀ state, I state → (∀ name, (body state).1 ≠ .ok (some name)) →
    names (body state).2 = names state

variable {I : σ → Prop} {names : σ → List String} {change : String → List String → List String}

namespace Moves

/-- A body that ends in one of two ways. -/
theorem of_cases {body : Exec σ RubyError (Option String)}
    (each : ∀ state, I state →
      (∃ name after, body state = (.ok (some name), after) ∧
        names after = change name (names state)) ∨
      ∃ outcome after, body state = (outcome, after) ∧ (∀ name, outcome ≠ .ok (some name)) ∧
        names after = names state) : Moves I names change body := by
  constructor
  · intro state holds name returned
    rcases each state holds with ⟨other, after, ran, changed⟩ | ⟨outcome, after, ran, silent, _⟩
    · rw [ran] at returned ⊢
      rw [← Option.some.inj (Except.ok.inj returned)]
      exact changed
    · rw [ran] at returned
      exact absurd returned (silent name)
  · intro state holds silent
    rcases each state holds with ⟨name, after, ran, _⟩ | ⟨outcome, after, ran, _, kept⟩
    · rw [ran] at silent
      exact absurd rfl (silent name)
    · rw [ran]
      exact kept

/-- A step that only reads comes first. -/
theorem bind {first : Exec σ RubyError α} {next : α → Exec σ RubyError (Option String)}
    (quiet : ∀ state, (first state).2 = state) (rest : ∀ value, Moves I names change (next value)) :
    Moves I names change (first >>= next) := by
  have split : ∀ state, (∃ value, (first >>= next) state = next value state) ∨
      ∃ raised, (first >>= next) state = (.error raised, state) := by
    intro state
    rcases ran : first state with ⟨raised | value, middle⟩
    · have same : middle = state := by rw [← quiet state, ran]
      exact Or.inr ⟨raised, by rw [Exec.bind_error ran, same]⟩
    · have same : middle = state := by rw [← quiet state, ran]
      exact Or.inl ⟨value, by rw [Exec.bind_ok ran, same]⟩
  constructor
  · intro state holds name returned
    rcases split state with ⟨value, ran⟩ | ⟨raised, ran⟩
    · rw [ran] at returned ⊢
      exact (rest value).named state holds name returned
    · rw [ran] at returned
      cases returned
  · intro state holds silent
    rcases split state with ⟨value, ran⟩ | ⟨raised, ran⟩
    · rw [ran] at silent ⊢
      exact (rest value).unnamed state holds silent
    · rw [ran]

theorem ofExcept_bind {outcome : Except RubyError α}
    {next : α → Exec σ RubyError (Option String)}
    (rest : ∀ value, Moves I names change (next value)) :
    Moves I names change (Exec.ofExcept outcome >>= next) :=
  bind (fun state => by rw [Exec.ofExcept_apply]) rest

/-- Nothing is named and nothing changes. -/
theorem none : Moves I names change (pure Option.none) :=
  of_cases fun state _ => Or.inr ⟨_, state, rfl, fun _ => by simp, rfl⟩

theorem raise (raised : RubyError) : Moves I names change (Exec.raise raised) :=
  of_cases fun state _ => Or.inr ⟨_, state, rfl, fun _ => by simp, rfl⟩

end Moves

end

/-! ## What a recorded change leaves -/

section

variable {σ : Type} {stamp : EventStamp} {request : Request} {category verb : String}

/-- The row leaves the state to the change before it. -/
theorem recordedIf_state (body : Exec σ RubyError (Option String)) (app : App σ) :
    (recordedIf stamp request category verb body app).2.state = (body app.state).2 := by
  unfold recordedIf
  rcases ran : body app.state with ⟨raised | _ | name, after⟩
  · have step : onState body app = (.error raised, { app with state := after }) := by
      rw [onState_apply, ran]
    rw [Exec.bind_error step]
  · have step : onState body app = (.ok none, { app with state := after }) := by
      rw [onState_apply, ran]
    rw [Exec.bind_ok step]
    rfl
  · have step : onState body app = (.ok (some name), { app with state := after }) := by
      rw [onState_apply, ran]
    rw [Exec.bind_ok step]
    exact emitHttp_state _ _ _ _ _

/-- So does a clause that replies to an invalid record. -/
theorem rescueInvalid_state (body : Exec (App σ) RubyError PUnit) (app : App σ) :
    (Exec.rescue body (fun error => if error.isRecordInvalid then some (pure ⟨⟩) else none)
      app).2.state = (body app).2.state := by
  rcases ran : body app with ⟨raised | value, after⟩
  · rw [Exec.rescue_error ran]
    cases raised.isRecordInvalid <;> rfl
  · rw [Exec.rescue_ok ran]

end

/-! ## Rows -/

section

variable {ρ : Type} {key : ρ → String} {errors : ρ → List FieldError}
  {stored : ρ → Except RubyError PUnit} {I : List ρ → Prop}

/-- A new row is saved at the end of the table, or nothing is. -/
theorem saveNew_cases (row : ρ) (rows : List ρ) :
    (saveNew key errors stored row rows = (.ok (some row), rows ++ [row]) ∧ errors row = [] ∧
      (∀ other ∈ rows, key other ≠ key row) ∧ stored row = .ok ⟨⟩) ∨
      ∃ outcome, saveNew key errors stored row rows = (outcome, rows) ∧
        ∀ saved, outcome ≠ .ok (some saved) := by
  by_cases accepted : errors row = [] ∧ ∀ other ∈ rows, key other ≠ key row
  · rcases accepted with ⟨valid, unused⟩
    cases fits : stored row with
    | ok value => exact Or.inl ⟨saveNew_of_valid valid unused fits, valid, unused, rfl⟩
    | error raised =>
        right
        have passed : ((errors row).isEmpty && rows.all fun other => key other ≠ key row) =
            true := by
          rw [valid, List.isEmpty_nil, Bool.true_and, List.all_eq_true]
          exact fun other member => decide_eq_true (unused other member)
        refine ⟨.error raised, ?_, fun saved => by simp⟩
        rw [saveNew, Exec.bind_ok (Exec.gets_apply id rows), id, if_pos passed, fits]
        rfl
  · exact Or.inr ⟨.ok none, saveNew_of_invalid accepted, fun saved => by simp⟩

/-- A changed row takes the place of the rows under its key, or nothing changes. -/
theorem saveChanged_cases (row : ρ) (rows : List ρ) :
    (saveChanged key errors stored row rows =
        (.ok (some row), updateWhere (fun other => key other = key row) (fun _ => row) rows) ∧
      errors row = [] ∧ stored row = .ok ⟨⟩) ∨
      ∃ outcome, saveChanged key errors stored row rows = (outcome, rows) ∧
        ∀ saved, outcome ≠ .ok (some saved) := by
  cases valid : errors row with
  | nil =>
      cases fits : stored row with
      | ok value =>
          refine Or.inl ⟨?_, rfl, rfl⟩
          rw [saveChanged, valid, List.isEmpty_nil, if_pos rfl, fits]
          rfl
      | error raised =>
          refine Or.inr ⟨.error raised, ?_, fun saved => by simp⟩
          rw [saveChanged, valid, List.isEmpty_nil, if_pos rfl, fits]
          rfl
  | cons error rest =>
      refine Or.inr ⟨.ok none, ?_, fun saved => by simp⟩
      rw [saveChanged, valid, List.isEmpty_cons, if_neg Bool.false_ne_true]
      rfl

theorem map_updateWhere (row : ρ) (rows : List ρ) :
    (updateWhere (fun other => key other = key row) (fun _ => row) rows).map key =
      rows.map key := by
  rw [updateWhere, List.map_map]
  apply List.map_congr_left
  intro other _
  by_cases same : key other = key row
  · simp [same]
  · simp [same]

theorem map_filter_key (name : String) (rows : List ρ) :
    (rows.filter fun other => key other ≠ name).map key = strikeName name (rows.map key) := by
  rw [strikeName, List.filter_map]
  rfl

/-- A row is found under its id, or there is none. -/
theorem findRow_cases (key : ρ → String) (name : String) (rows : List ρ) :
    (∃ row ∈ rows, key row = name ∧ findRow key name rows = (.ok row, rows)) ∨
      ∃ raised, findRow key name rows = (.error raised, rows) := by
  unfold findRow
  rw [Exec.bind_ok (Exec.gets_apply _ _)]
  cases found : rows.find? fun row => key row = name with
  | none => exact Or.inr ⟨_, rfl⟩
  | some row =>
      have isName := List.find?_some found
      exact Or.inl ⟨row, List.mem_of_find?_eq_some found, of_decide_eq_true isName, rfl⟩

theorem findRow_state (name : String) (rows : List ρ) :
    (findRow key name rows).2 = rows := by
  rcases findRow_cases key name rows with ⟨row, _, _, found⟩ | ⟨raised, missing⟩
  · rw [found]
  · rw [missing]

/-- The rest of an action answers with the key of what was saved. -/
theorem returning_apply {body : Exec (List ρ) RubyError (Option ρ)} {rows after : List ρ}
    {outcome : Except RubyError (Option ρ)} (ran : body rows = (outcome, after)) :
    (body >>= fun saved => pure (saved.map key)) rows =
      (outcome.map fun saved => saved.map key, after) := by
  rw [Exec.bind_pure_apply, ran]

theorem map_ne_some {outcome : Except RubyError (Option ρ)}
    (silent : ∀ saved, outcome ≠ .ok (some saved)) (name : String) :
    (outcome.map fun saved => saved.map key) ≠ .ok (some name) := by
  rcases outcome with raised | _ | row
  · simp [Except.map]
  · simp [Except.map]
  · exact absurd rfl (silent row)

theorem moves_saveNew (row : ρ) : Moves I (List.map key) enterName
    (saveNew key errors stored row >>= fun saved => pure (saved.map key)) := by
  apply Moves.of_cases
  intro rows _
  rcases @saveNew_cases _ key errors stored row rows with ⟨saved, _⟩ | ⟨outcome, refused, silent⟩
  · exact Or.inl ⟨key row, _, returning_apply saved, List.map_append⟩
  · exact Or.inr ⟨_, _, returning_apply refused, map_ne_some silent, rfl⟩

theorem moves_saveChanged (row : ρ) : Moves I (List.map key) keepNames
    (saveChanged key errors stored row >>= fun saved => pure (saved.map key)) := by
  apply Moves.of_cases
  intro rows _
  rcases @saveChanged_cases _ key errors stored row rows with
    ⟨saved, _⟩ | ⟨outcome, refused, silent⟩
  · exact Or.inl ⟨key row, _, returning_apply saved, map_updateWhere row rows⟩
  · exact Or.inr ⟨_, _, returning_apply refused, map_ne_some silent, rfl⟩

theorem moves_destroyRow (row : ρ) : Moves I (List.map key) strikeName
    (destroyRow key row >>= fun _ => pure (some (key row))) := by
  apply Moves.of_cases
  intro rows _
  exact Or.inl ⟨key row, _, rfl, map_filter_key (key row) rows⟩

end

/-! ## The actions -/

section

variable {site : Deployment} {request : Request}

theorem WebhooksController.moves_create :
    Moves (fun _ => True) (List.map Migration.Webhook.idSlug) enterName
      (createWebhook site request) :=
  Moves.ofExcept_bind fun _ => moves_saveNew _

theorem WebhooksController.moves_update :
    Moves (fun _ => True) (List.map Migration.Webhook.idSlug) keepNames
      (updateWebhook site request) :=
  Moves.bind (findRow_state _) fun _ => Moves.ofExcept_bind fun _ => moves_saveChanged _

theorem WebhooksController.moves_destroy :
    Moves (fun _ => True) (List.map Migration.Webhook.idSlug) strikeName
      (destroyWebhook site request) :=
  Moves.bind (findRow_state _) fun _ => moves_destroyRow _

theorem ProfilesController.moves_create :
    Moves (fun _ => True) (List.map fun row => row.idSlug) enterName (createProfile site request) :=
  Moves.ofExcept_bind fun _ => moves_saveNew _

theorem ProfilesController.moves_update :
    Moves (fun _ => True) (List.map fun row => row.idSlug) keepNames (updateProfile site request) :=
  Moves.bind (findRow_state _) fun _ => Moves.ofExcept_bind fun _ => moves_saveChanged _

theorem ProfilesController.moves_destroy :
    Moves (fun _ => True) (List.map fun row => row.idSlug) strikeName
      (destroyProfile site request) := by
  refine Moves.bind (findRow_state _) fun profile => ?_
  split_ifs
  · exact Moves.none
  · exact moves_destroyRow profile

namespace SchedulesController

/-- The names of the schedules. -/
def slugs (db : Database) : List String := db.schedules.map fun sched => sched.idSlug

theorem findSchedule_state (db : Database) : (findSchedule site request db).2 = db := by
  unfold findSchedule
  rw [Exec.bind_ok (Exec.gets_apply _ _)]
  cases db.schedules.find? fun sched =>
    sched.idSlug = textColumn site.env.casts (param request "id") <;> rfl

theorem slugs_createSchedule (db : Database) (slug : String) (form : ScheduleForm) :
    slugs (db.createSchedule slug form) =
      if (form.build slug).errors.isEmpty && db.schedules.all (fun sched => sched.idSlug ≠ slug)
      then enterName slug (slugs db) else slugs db := by
  unfold Database.createSchedule
  by_cases valid : (form.build slug).errors = []
  · rw [dif_pos valid, valid, List.isEmpty_nil, Bool.true_and]
    by_cases used : ∃ sched ∈ db.schedules, sched.idSlug = slug
    · have found : (db.schedules.any fun sched => sched.idSlug = slug) = true := by simpa using used
      have notAll : ¬ (db.schedules.all fun sched => sched.idSlug ≠ slug) = true := by
        simpa using used
      rw [if_pos found, if_neg notAll]
    · have notFound : ¬ (db.schedules.any fun sched => sched.idSlug = slug) = true := by
        simpa using used
      have all : (db.schedules.all fun sched => sched.idSlug ≠ slug) = true := by simpa using used
      rw [if_neg notFound, if_pos all, slugs, List.map_append]
      rfl
  · have notEmpty : ¬ (form.build slug).errors.isEmpty = true := by
      rwa [List.isEmpty_iff]
    rw [dif_neg valid, Bool.eq_false_of_not_eq_true notEmpty, Bool.false_and,
      if_neg Bool.false_ne_true]

theorem slugs_updateSchedule (db : Database) (slug : String) (form : ScheduleForm) :
    slugs (db.updateSchedule slug form) = slugs db := by
  unfold slugs Database.updateSchedule updateWhere
  rw [List.map_map]
  apply List.map_congr_left
  intro sched _
  dsimp only [Function.comp]
  split_ifs
  · unfold Database.reviseSchedule
    split_ifs
    · rfl
    · rfl
  · rfl

theorem moves_create :
    Moves (fun _ => True) slugs enterName (createSchedule site request) := by
  refine Moves.ofExcept_bind fun form => Moves.of_cases fun db _ => ?_
  have changed := slugs_createSchedule db ("sch_" ++ site.slugHex) form
  by_cases created : ((form.build ("sch_" ++ site.slugHex)).errors.isEmpty &&
      db.schedules.all fun sched => sched.idSlug ≠ "sch_" ++ site.slugHex) = true
  · rw [if_pos created] at changed
    refine Or.inl ⟨"sch_" ++ site.slugHex, db.createSchedule ("sch_" ++ site.slugHex) form, ?_,
      changed⟩
    rw [Exec.bind_ok (Exec.gets_apply id db), Exec.bind_ok (Exec.modify_apply _ _), id,
      if_pos created]
    rfl
  · rw [if_neg created] at changed
    refine Or.inr ⟨.ok none, db.createSchedule ("sch_" ++ site.slugHex) form, ?_,
      fun _ => by simp, changed⟩
    rw [Exec.bind_ok (Exec.gets_apply id db), Exec.bind_ok (Exec.modify_apply _ _), id,
      if_neg created]
    rfl

theorem moves_update :
    Moves (fun _ => True) slugs keepNames (updateSchedule site request) := by
  refine Moves.bind findSchedule_state fun sched => Moves.ofExcept_bind fun form => ?_
  refine Moves.of_cases fun db _ => ?_
  have kept := slugs_updateSchedule db sched.idSlug form
  rw [Exec.bind_ok (Exec.modify_apply _ _)]
  split_ifs
  · exact Or.inl ⟨sched.idSlug, _, rfl, kept⟩
  · exact Or.inr ⟨.ok none, _, rfl, fun _ => by simp, kept⟩

theorem moves_destroy :
    Moves (fun _ => True) slugs strikeName (destroySchedule site request) := by
  refine Moves.bind findSchedule_state fun sched => Moves.of_cases fun db _ => ?_
  exact Or.inl ⟨sched.idSlug, _, rfl, map_filter_key sched.idSlug db.schedules⟩

end SchedulesController

namespace ApiTokensController

/-- The names of the tokens. -/
def tokenNames (store : Store) : List String := store.apiTokens.map fun token => token.name

/-- No two tokens share an id or a name. -/
structure DistinctTokens (store : Store) : Prop where
  ids : (store.apiTokens.map fun token => token.idSlug).Nodup
  names : (tokenNames store).Nodup

/-- A token is inserted at the end of the table, or nothing is. -/
theorem create_cases (token : Auth.ApiToken) (store : Store) :
    (∃ after, token.create store = (.ok ⟨⟩, after) ∧ token.valid store = true ∧
      after.apiTokens = store.apiTokens ++ [token]) ∨
      ∃ raised, token.create store = (.error raised, store) := by
  unfold Auth.ApiToken.create
  split_ifs with taken valid
  · exact Or.inr ⟨_, rfl⟩
  · exact Or.inl ⟨_, rfl, valid, rfl⟩
  · exact Or.inr ⟨_, rfl⟩

/-- The token that a request asks for. -/
def newToken (site : Deployment) (request : Request) : Auth.ApiToken :=
  ⟨"tok_" ++ site.slugHex, textColumn site.env.casts (param request "name"),
    Auth.ApiToken.leading (Auth.ApiToken.TOKEN_PREFIX ++ site.tokenHex),
    site.env.crypto.hexdigest (Auth.ApiToken.TOKEN_PREFIX ++ site.tokenHex)⟩

/-- Issuing inserts the token and answers with its name, or raises. -/
theorem issueToken_cases (store : Store) :
    (∃ after, issueToken site request store = (.ok (some (newToken site request).name), after) ∧
      (newToken site request).valid store = true ∧
      after.apiTokens = store.apiTokens ++ [newToken site request]) ∨
      ∃ raised, issueToken site request store = (.error raised, store) := by
  unfold issueToken
  split_ifs
  · by_cases isBlank : Text.blank (newToken site request).name = true
    · right
      have refused : Auth.ApiToken.issue site.env.crypto (newToken site request).name site.slugHex
          site.tokenHex = Exec.raise Auth.ApiToken.invalidMessage := if_pos isBlank
      exact ⟨_, Exec.bind_error (congrFun refused store) _⟩
    · have issued : Auth.ApiToken.issue site.env.crypto (newToken site request).name site.slugHex
          site.tokenHex = (newToken site request).create >>= fun _ => pure _ := if_neg isBlank
      rcases create_cases (newToken site request) store with
        ⟨after, created, valid, inserted⟩ | ⟨raised, refused⟩
      · refine Or.inl ⟨after, ?_, valid, inserted⟩
        exact Exec.bind_ok ((congrFun issued store).trans (Exec.bind_ok created _)) _
      · right
        exact ⟨raised, Exec.bind_error ((congrFun issued store).trans
          (Exec.bind_error refused _)) _⟩
  · exact Or.inr ⟨_, rfl⟩

theorem moves_create : Moves DistinctTokens tokenNames enterName (issueToken site request) := by
  apply Moves.of_cases
  intro store _
  rcases @issueToken_cases site request store with ⟨after, issued, _, inserted⟩ | ⟨raised, refused⟩
  · refine Or.inl ⟨_, after, issued, ?_⟩
    rw [tokenNames, inserted, List.map_append]
    rfl
  · exact Or.inr ⟨_, store, refused, fun _ => by simp, rfl⟩

/-- Where ids and names are not shared, deleting by one is deleting by the other. -/
theorem DistinctTokens.filter_eq {store : Store} (distinct : DistinctTokens store)
    {token : Auth.ApiToken} (member : token ∈ store.apiTokens) :
    (store.apiTokens.filter fun row => row.idSlug ≠ token.idSlug) =
      store.apiTokens.filter fun row => row.name ≠ token.name := by
  apply List.filter_congr
  intro row among
  have sameId : row.idSlug = token.idSlug → row = token := fun same =>
    Rows.eq_of_key_eq (List.pairwise_map.mp distinct.ids) among member same
  have sameName : row.name = token.name → row = token := fun same =>
    Rows.eq_of_key_eq (List.pairwise_map.mp distinct.names) among member same
  rw [decide_eq_decide]
  apply not_congr
  constructor
  · intro same
    rw [sameId same]
  · intro same
    rw [sameName same]

theorem moves_destroy : Moves DistinctTokens tokenNames strikeName (revokeToken site request) := by
  apply Moves.of_cases
  intro store distinct
  unfold revokeToken Auth.ApiToken.revoke
  cases found : store.apiTokens.find? fun token =>
    token.idSlug = textColumn site.env.casts (param request "id") with
  | none =>
      refine Or.inr ⟨.error .recordNotFound, store, ?_, fun _ => by simp, rfl⟩
      rw [Exec.bind_assoc, Exec.bind_ok (Exec.gets_apply _ _), found]
      rfl
  | some token =>
      refine Or.inl ⟨token.name,
        store.keepApiTokens fun row => row.idSlug ≠ token.idSlug, ?_, ?_⟩
      · rw [Exec.bind_assoc, Exec.bind_ok (Exec.gets_apply _ _), found]
        rfl
      · have sameRows := distinct.filter_eq (List.mem_of_find?_eq_some found)
        exact (congrArg (List.map fun row => row.name) sameRows).trans
          (map_filter_key token.name store.apiTokens)

end ApiTokensController

end

end MultipassWebui.Web
