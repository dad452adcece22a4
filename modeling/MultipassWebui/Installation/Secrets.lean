import MultipassWebui.Installation.Integrity
import MultipassWebui.Transition.Journal

/-!
# The secrets of the webhooks

The form of a webhook shows no secret, and a form that comes back without one
leaves the stored secret alone.  So a secret, once stored, is there until its
webhook is deleted, and it only ever gives way to one that a visitor submitted.
-/

namespace MultipassWebui.Installation

open MultipassWebui.Effect
open MultipassWebui.Encoding
open MultipassWebui.Migration (Casts Webhook)
open MultipassWebui.Records
open MultipassWebui.Records.Rows (updateWhere)
open MultipassWebui.Text
open MultipassWebui.Transition
open MultipassWebui.Web
open MultipassWebui.Web.WebhooksController

/-- The text of a value that is not blank is not blank. -/
def KeepsPresence (casts : Casts) : Prop :=
  ∀ value, isScalar value = true → Value.present value = true → present (casts.text value) = true

/-- The secret in the form of a request. -/
def submittedSecret (request : Request) : Option Json :=
  match webhookParams request with
  | .ok p => p.lookup "secret"
  | .error _ => none

/-- A visit submits a secret for a webhook that is not blank. -/
def Submits (idSlug : String) (state : State) (happening : Happening) (secret : String) : Prop :=
  ∃ visit value, happening = .visit visit (.webhooks .update) ∧ visit.Authentic state ∧
    textColumn visit.site.deployment.env.casts (param visit.request "id") = idSlug ∧
    submittedSecret visit.request = some value ∧ Value.present value = true ∧
    visit.site.deployment.env.casts.text value = some secret

/-! ## One form -/

section

variable {site : Deployment} {request : Request} {p : Permitted}

theorem lookup_delete_of_ne {key other : String} (different : other ≠ key) (p : Permitted) :
    (p.delete key).lookup other = p.lookup other := by
  induction p with
  | nil => rfl
  | cons field rest ih =>
      rcases field with ⟨name, content⟩
      unfold Permitted.delete at ih ⊢
      rw [List.filter_cons]
      by_cases isKey : name = key
      · have differs : (other == name) = false := by
          rw [isKey]
          exact beq_false_of_ne different
        rw [if_neg (by simp [isKey]), ih, List.lookup_cons, differs]
      · rw [if_pos (by simp [isKey]), List.lookup_cons, List.lookup_cons, ih]

theorem lookup_put_of_ne {key other : String} (different : other ≠ key) (value : Json)
    (p : Permitted) : (p.put key value).lookup other = p.lookup other := by
  unfold Permitted.put
  rw [List.lookup_cons, beq_false_of_ne different]
  exact lookup_delete_of_ne different p

theorem lookup_delete (key : String) (p : Permitted) : (p.delete key).lookup key = none := by
  rw [List.lookup_eq_none_iff]
  intro field member
  have kept := (List.mem_filter.mp member).2
  have different : field.1 ≠ key := of_decide_eq_true kept
  exact bne_iff_ne.mpr different.symm

/-- A value that is permitted for a plain key is a plain value. -/
theorem isScalar_of_permit {scalars lists : List String} {document : Json}
    (permitted : permit scalars lists document = .ok p) {key : String} {value : Json}
    (found : p.lookup key = some value) (plain : key ∉ lists) : isScalar value = true := by
  cases document with
  | object fields =>
      rcases List.lookup_eq_some_iff.mp found with ⟨earlier, later, isP, _⟩
      have member : (key, value) ∈ p := by
        rw [isP]
        simp
      rw [← Except.ok.inj permitted, List.mem_filter] at member
      have passed := member.2
      simp [plain] at passed
      exact passed.2
  | _ => cases permitted

/-- A secret that is permitted is a plain value. -/
theorem isScalar_of_secret (permitted : webhookParams request = .ok p) {value : Json}
    (found : p.lookup "secret" = some value) : isScalar value = true := by
  simp only [webhookParams, bind_eq_ok_iff] at permitted
  rcases permitted with ⟨fields, required, isP⟩
  rw [← Except.ok.inj isP, lookup_put_of_ne (by decide), lookup_put_of_ne (by decide)] at found
  unfold requirePermit at required
  split at required
  · cases required
  · split_ifs at required
    exact isScalar_of_permit required found (by decide)

/-- What the form leaves as the secret of a webhook that has one: that secret, or a
submitted one. -/
theorem secret_assign (texts : KeepsPresence site.env.casts)
    (permitted : webhookParams request = .ok p) {webhook : Webhook}
    (given : present webhook.secret = true) :
    (assign site (updates p webhook) webhook).secret = webhook.secret ∨
      ∃ value, submittedSecret request = some value ∧ Value.present value = true ∧
        (assign site (updates p webhook) webhook).secret = site.env.casts.text value ∧
        present (site.env.casts.text value) = true := by
  have submitted : submittedSecret request = p.lookup "secret" := by
    rw [submittedSecret, permitted]
  by_cases isPresent : Value.present (p.get "secret") = true
  · right
    cases found : p.lookup "secret" with
    | none =>
        rw [Permitted.get, found] at isPresent
        cases isPresent
    | some value =>
        rw [Permitted.get, found, Option.getD_some] at isPresent
        refine ⟨value, submitted.trans found, isPresent, ?_,
          texts value (isScalar_of_secret permitted found) isPresent⟩
        unfold updates assign Permitted.assign Permitted.get
        simp [found, isPresent]
  · left
    have blank : (!Value.present (p.get "secret") && present webhook.secret) = true := by
      simp [isPresent, given]
    unfold updates assign
    simp only [if_pos blank, Permitted.assign, lookup_delete, Option.map_none, Option.getD_none]

/-! ## One action -/

variable {rows : List Webhook} {webhook : Webhook}

/-- A new webhook leaves the others alone. -/
theorem mem_createWebhook (member : webhook ∈ rows) :
    webhook ∈ (createWebhook site request rows).2 := by
  have : IsPreorder (List Webhook) fun before after => ∀ row ∈ before, row ∈ after :=
    { refl := fun _ _ => id, trans := fun _ _ _ first second row => second row ∘ first row }
  have keeps : Exec.Keeps (fun before after : List Webhook => ∀ row ∈ before, row ∈ after)
      (createWebhook site request) := by
    refine Exec.keeps_bind (Exec.keeps_ofExcept _) fun p => Exec.keeps_bind ?_ fun _ =>
      Exec.keeps_pure _
    intro before row among
    rcases @saveNew_cases _ Webhook.idSlug errors (fun _ => .ok ⟨⟩)
      (assign site p (blankWebhook site)) before with ⟨saved, _⟩ | ⟨outcome, refused, _⟩
    · rw [saved]
      exact List.mem_append_left _ among
    · rw [refused]
      exact among
  exact keeps rows webhook member

/-- Deleting a webhook leaves the others alone. -/
theorem mem_destroyWebhook (member : webhook ∈ rows)
    (stays : webhook.idSlug ∈ (destroyWebhook site request rows).2.map Webhook.idSlug) :
    webhook ∈ (destroyWebhook site request rows).2 := by
  unfold destroyWebhook at stays ⊢
  rcases findRow_cases Webhook.idSlug (textColumn site.env.casts (param request "id")) rows with
    ⟨deleted, _, _, found⟩ | ⟨raised, missing⟩
  · rw [Exec.bind_ok found] at stays ⊢
    rcases List.mem_map.mp stays with ⟨other, among, same⟩
    have different : decide (other.idSlug ≠ deleted.idSlug) = true := (List.mem_filter.mp among).2
    rw [same] at different
    exact List.mem_filter.mpr ⟨member, different⟩
  · rw [Exec.bind_error missing]
    exact member

/-- Changing a webhook leaves the others alone, and the secret of its own is the stored
one or the submitted one. -/
theorem mem_updateWebhook (texts : KeepsPresence site.env.casts)
    (distinct : (rows.map Webhook.idSlug).Nodup) (member : webhook ∈ rows)
    (given : present webhook.secret = true) :
    ∃ later ∈ (updateWebhook site request rows).2, later.idSlug = webhook.idSlug ∧
      (later.secret = webhook.secret ∨
        textColumn site.env.casts (param request "id") = webhook.idSlug ∧
          ∃ value, submittedSecret request = some value ∧ Value.present value = true ∧
            later.secret = site.env.casts.text value ∧
            present (site.env.casts.text value) = true) := by
  unfold updateWebhook
  rcases findRow_cases Webhook.idSlug (textColumn site.env.casts (param request "id")) rows with
    ⟨found, among, isId, ran⟩ | ⟨raised, missing⟩
  · rw [Exec.bind_ok ran]
    cases permitted : webhookParams request with
    | error raised => exact ⟨webhook, member, rfl, Or.inl rfl⟩
    | ok p =>
        rw [Exec.bind_ok (Exec.ofExcept_apply _ _), Exec.bind_state fun _ _ => rfl]
        rcases @saveChanged_cases _ Webhook.idSlug errors (fun _ => .ok ⟨⟩)
          (assign site (updates p found) found) rows with ⟨saved, _⟩ | ⟨outcome, refused, _⟩
        · rw [saved]
          by_cases same : found.idSlug = webhook.idSlug
          · have isFound := Rows.eq_of_key_eq (List.pairwise_map.mp distinct) among member same
            rw [isFound] at isId ⊢
            refine ⟨assign site (updates p webhook) webhook, ?_, rfl, ?_⟩
            · refine Rows.mem_updateWhere.mpr ⟨webhook, member, ?_⟩
              exact if_pos (decide_eq_true rfl)
            · rcases secret_assign texts permitted given with kept | submitted
              · exact Or.inl kept
              · exact Or.inr ⟨isId.symm, submitted⟩
          · refine ⟨webhook, Rows.mem_updateWhere.mpr ⟨webhook, member, ?_⟩, rfl, Or.inl rfl⟩
            have different : ¬ decide (webhook.idSlug =
                (assign site (updates p found) found).idSlug) = true :=
              fun equal => same (of_decide_eq_true equal).symm
            rw [if_neg different]
        · rw [refused]
          exact ⟨webhook, member, rfl, Or.inl rfl⟩
  · rw [Exec.bind_error missing]
    exact ⟨webhook, member, rfl, Or.inl rfl⟩

end

/-! ## Runs -/

/-- The casts of a visit take no value that is not blank to a blank text. -/
def TextsKeepPresence (_ : State) : Happening → Prop
  | .visit visit _ => KeepsPresence visit.site.deployment.env.casts
  | _ => True

/-- The webhook is there. -/
def HasWebhook (idSlug : String) (state : State) : Prop :=
  idSlug ∈ state.webhooks.map Webhook.idSlug

section

variable {state target : State} {happening : Happening} {webhook : Webhook}

theorem webhooks_create (visit : Visit) (state : State) :
    (visit.act (.webhooks .create) state).2.webhooks =
      (createWebhook (visit.siteIn state).deployment visit.request state.webhooks).2 :=
  recordedIf_state _ _

theorem webhooks_update (visit : Visit) (state : State) :
    (visit.act (.webhooks .update) state).2.webhooks =
      (updateWebhook (visit.siteIn state).deployment visit.request state.webhooks).2 :=
  recordedIf_state _ _

theorem webhooks_destroy (visit : Visit) (state : State) :
    (visit.act (.webhooks .destroy) state).2.webhooks =
      (destroyWebhook (visit.siteIn state).deployment visit.request state.webhooks).2 :=
  recordedIf_state _ _

/-- A step keeps the secret of a webhook that stays, or replaces it by one that it submits. -/
theorem secret_next (sound : Sound state) (texts : TextsKeepPresence state happening)
    (step : next state happening = some target) (stays : HasWebhook webhook.idSlug target)
    (member : webhook ∈ state.webhooks) (given : present webhook.secret = true) :
    ∃ later ∈ target.webhooks, later.idSlug = webhook.idSlug ∧ present later.secret = true ∧
      (later.secret = webhook.secret ∨
        ∃ secret, later.secret = some secret ∧
          Submits webhook.idSlug state happening secret) := by
  have unchanged : webhook ∈ target.webhooks → ∃ later ∈ target.webhooks,
      later.idSlug = webhook.idSlug ∧ present later.secret = true ∧
        (later.secret = webhook.secret ∨ ∃ secret, later.secret = some secret ∧
          Submits webhook.idSlug state happening secret) :=
    fun kept => ⟨webhook, kept, rfl, given, Or.inl rfl⟩
  rcases next_cases step with ⟨visit, action, rfl, authentic, rfl⟩ | aside
  · have begun : webhook ∈ (visit.begun action state).webhooks := by
      rw [Visit.webhooks_begun]
      exact member
    have sound := sound.begun visit action
    cases action with
    | webhooks change =>
        cases change with
        | create =>
            apply unchanged
            rw [webhooks_create]
            exact mem_createWebhook begun
        | update =>
            rcases @mem_updateWebhook
              (visit.siteIn (visit.begun (.webhooks .update) state)).deployment
              visit.request _ _ texts sound.webhooks.distinct begun given with
              ⟨later, among, sameId, sameSecret⟩
            refine ⟨later, ?_, sameId, ?_⟩
            · rw [webhooks_update]
              exact among
            · rcases sameSecret with kept | ⟨isId, value, submitted, isPresent, isText, isGiven⟩
              · rw [kept]
                exact ⟨given, Or.inl rfl⟩
              · rw [isText]
                refine ⟨isGiven, Or.inr ?_⟩
                cases text : (visit.siteIn
                  (visit.begun (.webhooks .update) state)).deployment.env.casts.text value with
                | none =>
                    rw [text] at isGiven
                    cases isGiven
                | some secret =>
                    exact ⟨secret, rfl, visit, value, rfl, authentic, isId, submitted, isPresent,
                      text⟩
        | destroy =>
            apply unchanged
            unfold HasWebhook at stays
            rw [webhooks_destroy] at stays ⊢
            exact mem_destroyWebhook begun stays
    | _ => exact unchanged begun
  · apply unchanged
    rw [aside.webhooks]
    exact member

end

/-- As long as a webhook that has a secret is not deleted it has one, and that is the
first secret or one that a visit of the run submitted. -/
theorem secret_of_run {start target : State} {happenings : List Happening} (sound : Sound start)
    (texts : Throughout next TextsKeepPresence start happenings) {webhook : Webhook}
    (stays : Always next (HasWebhook webhook.idSlug) start happenings)
    (executed : run next start happenings = some target) (member : webhook ∈ start.webhooks)
    (given : present webhook.secret = true) :
    ∃ later ∈ target.webhooks, later.idSlug = webhook.idSlug ∧ present later.secret = true ∧
      (later.secret = webhook.secret ∨
        ∃ secret, later.secret = some secret ∧
          Written next (Submits webhook.idSlug) start happenings secret) := by
  induction happenings generalizing start webhook with
  | nil =>
      cases executed
      exact ⟨webhook, member, rfl, given, Or.inl rfl⟩
  | cons happening rest ih =>
      obtain ⟨middle, step, tail⟩ := (run_cons_eq_some_iff _ _ _ _ _).mp executed
      obtain ⟨condition, laterTexts⟩ := texts middle step
      have laterStays := stays.2 middle step
      rcases secret_next sound condition step laterStays.head member given with
        ⟨between, among, sameId, isGiven, origin⟩
      rw [← sameId] at laterStays
      rcases ih (sound.next step) laterTexts laterStays tail among isGiven with
        ⟨later, isLater, laterId, laterGiven, laterOrigin⟩
      refine ⟨later, isLater, laterId.trans sameId, laterGiven, ?_⟩
      rcases laterOrigin with same | ⟨secret, isSecret, written⟩
      · rcases origin with kept | ⟨secret, isSecret, submits⟩
        · exact Or.inl (same.trans kept)
        · exact Or.inr ⟨secret, same.trans isSecret, (written_cons_iff step _ _).mpr
            (Or.inl submits)⟩
      · rw [sameId] at written
        exact Or.inr ⟨secret, isSecret, (written_cons_iff step _ _).mpr (Or.inr written)⟩

/-- The casts of texts, with one text for everything else. -/
def textCasts : Casts :=
  { Migration.plainCasts with
    text := fun value => match value with
      | .null => none
      | .string text => some text
      | _ => some "*"
    text_string := fun _ => rfl
    text_null := rfl }

theorem keepsPresence_textCasts : KeepsPresence textCasts := by
  intro value isPlain isPresent
  cases value with
  | null => cases isPresent
  | string text => exact isPresent
  | bool _ | number _ => exact (by decide : present (some "*") = true)
  | array _ | object _ => cases isPlain

/-- A form without a secret, for a webhook that has one. -/
def blankForm : List Happening :=
  [.signIn firstSignIn,
    .visit { signedIn "0000" ⟨"PATCH", "/webhooks/wh_1",
        .object [("id", .string "wh_1"), ("webhook", webhookForm "")]⟩ with
      site := { plainSite with deployment := { plainSite.deployment with
        env := { Migration.plainEnvironment with casts := textCasts } } } }
      (.webhooks .update)]

def opsWebhook : Webhook where
  idSlug := "wh_1"
  name := "ops"
  url := "https://ops.test/hook"
  enabled := some true
  categories := .array []
  results := .array []
  secret := some "key"
  createdAt := 0

def withWebhook : State := { first emptyDisk with webhooks := [opsWebhook] }

theorem secret_of_run_blankForm :
    ∃ target, run next withWebhook blankForm = some target ∧
      ∃ later ∈ target.webhooks, later.idSlug = "wh_1" ∧ present later.secret = true ∧
        (later.secret = some "key" ∨ ∃ secret, later.secret = some secret ∧
          Written next (Submits "wh_1") withWebhook blankForm secret) := by
  have sound : Sound withWebhook :=
    { sound_first emptyDisk with
      webhooks := ⟨List.nodup_singleton _, fun webhook member => by
        rw [List.mem_singleton.mp member]
        exact (by decide : errors opsWebhook = [])⟩ }
  refine ⟨_, rfl, @secret_of_run _ _ blankForm sound ?_ opsWebhook ?_ rfl List.mem_cons_self
    (by decide)⟩
  · rintro _ ⟨⟩
    refine ⟨trivial, ?_⟩
    rintro _ ⟨⟩
    exact ⟨keepsPresence_textCasts, trivial⟩
  · refine ⟨List.mem_cons_self, ?_⟩
    rintro _ ⟨⟩
    refine ⟨List.mem_cons_self, ?_⟩
    rintro _ ⟨⟩
    unfold Always HasWebhook
    decide

end MultipassWebui.Installation
