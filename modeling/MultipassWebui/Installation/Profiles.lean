import MultipassWebui.Installation.Integrity

/-!
# The built-in profiles of an installation

No request can delete a built-in profile, give it another id or make another
profile built-in, so the built-in profiles are the same after every run.
-/

namespace MultipassWebui.Installation

open MultipassWebui.Effect
open MultipassWebui.Records
open MultipassWebui.Records.Rows (updateWhere)
open MultipassWebui.Transition
open MultipassWebui.Web
open MultipassWebui.Web.ProfilesController

/-- The ids of the built-in profiles. -/
def builtinIds (profiles : List StoredProfile) : List String :=
  (profiles.filter fun profile => profile.builtin = some true).map fun profile => profile.idSlug

/-- `Profile::AGENT_READY` -/
def AGENT_READY : StoredProfile where
  idSlug := "agent-ready"
  name := "Agent Ready (VNC + Docker)"
  release := some "24.04"
  cpus := some 2
  memoryMb := some 4096
  diskGb := some 20
  cloudInit := some "builtin:agent-ready.yml"
  network := none
  playbook := none
  groupName := some "agents"
  builtin := some true

/-- `Profile.ensure_builtin!`; the row passes the validations. -/
def ensureBuiltin (profiles : List StoredProfile) : List StoredProfile :=
  if profiles.any fun profile => profile.idSlug = AGENT_READY.idSlug then profiles
  else profiles ++ [AGENT_READY]

/-- The built-in profile is there, unless another profile has its id. -/
theorem mem_builtinIds_ensureBuiltin {profiles : List StoredProfile}
    (free : ∀ profile ∈ profiles, profile.idSlug = AGENT_READY.idSlug →
      profile.builtin = some true) :
    AGENT_READY.idSlug ∈ builtinIds (ensureBuiltin profiles) := by
  unfold ensureBuiltin
  split_ifs with found
  · rcases List.any_eq_true.mp found with ⟨profile, member, same⟩
    have sameId := of_decide_eq_true same
    rw [← sameId]
    apply List.mem_map_of_mem
    exact List.mem_filter.mpr ⟨member, decide_eq_true (free profile member sameId)⟩
  · simp [builtinIds, AGENT_READY]

section

variable {site : Deployment} {request : Request} {rows : List StoredProfile}

theorem builtinIds_append (rows more : List StoredProfile) :
    builtinIds (rows ++ more) = builtinIds rows ++ builtinIds more := by
  simp [builtinIds]

/-- The profiles change one by one, but neither their ids nor whether they are built-in. -/
theorem builtinIds_map {change : StoredProfile → StoredProfile}
    (keeps : ∀ row ∈ rows, (change row).idSlug = row.idSlug ∧
      (change row).builtin = row.builtin) : builtinIds (rows.map change) = builtinIds rows := by
  unfold builtinIds
  rw [List.filter_map, List.map_map]
  have sameRows : rows.filter ((fun profile => profile.builtin = some true) ∘ change) =
      rows.filter fun profile => profile.builtin = some true := by
    apply List.filter_congr
    intro row member
    rw [Function.comp_apply, (keeps row member).2]
  rw [sameRows]
  apply List.map_congr_left
  intro row member
  exact (keeps row (List.mem_filter.mp member).1).1

/-- Profiles that are not built-in are deleted. -/
theorem builtinIds_filter {kept : StoredProfile → Bool}
    (keeps : ∀ row ∈ rows, row.builtin = some true → kept row = true) :
    builtinIds (rows.filter kept) = builtinIds rows := by
  unfold builtinIds
  rw [List.filter_filter]
  congr 1
  apply List.filter_congr
  intro row member
  by_cases builtin : row.builtin = some true
  · simp [builtin, keeps row member builtin]
  · simp [builtin]

theorem builtinIds_createProfile (rows : List StoredProfile) :
    builtinIds (createProfile site request rows).2 = builtinIds rows := by
  have keeps : Exec.Keeps (fun before after => builtinIds after = builtinIds before)
      (createProfile site request) := by
    have : IsPreorder (List StoredProfile) fun before after =>
        builtinIds after = builtinIds before :=
      { refl := fun _ => rfl, trans := fun _ _ _ first second => second.trans first }
    refine Exec.keeps_bind (Exec.keeps_ofExcept _) fun p => Exec.keeps_bind ?_ fun _ =>
      Exec.keeps_pure _
    intro before
    rcases saveNew_cases (assign site p (blankProfile (generateIdSlug site
      (profileName site request)))) before with ⟨saved, _⟩ | ⟨outcome, refused, _⟩
    · rw [saved, builtinIds_append]
      exact List.append_nil _
    · rw [refused]
  exact keeps rows

theorem builtinIds_updateProfile (distinct : (rows.map fun row => row.idSlug).Nodup) :
    builtinIds (updateProfile site request rows).2 = builtinIds rows := by
  unfold updateProfile
  rcases findRow_cases (fun row : StoredProfile => row.idSlug)
    (textColumn site.env.casts (param request "id")) rows with ⟨profile, member, _, found⟩ |
      ⟨raised, missing⟩
  · rw [Exec.bind_ok found]
    cases profileParams request with
    | error raised => rfl
    | ok p =>
        rw [Exec.bind_ok (Exec.ofExcept_apply _ _), Exec.bind_state fun _ _ => rfl]
        rcases saveChanged_cases (assign site p profile) rows with
          ⟨saved, _⟩ | ⟨outcome, refused, _⟩
        · rw [saved]
          apply builtinIds_map
          intro row among
          by_cases same : row.idSlug = profile.idSlug
          · have isProfile := Rows.eq_of_key_eq (List.pairwise_map.mp distinct) among member same
            have replaced : decide (profile.idSlug = (assign site p profile).idSlug) = true :=
              decide_eq_true rfl
            rw [isProfile]
            dsimp only
            rw [if_pos replaced]
            exact ⟨rfl, rfl⟩
          · have other : ¬ decide (row.idSlug = (assign site p profile).idSlug) = true :=
              fun equal => same (of_decide_eq_true equal)
            dsimp only
            rw [if_neg other]
            exact ⟨rfl, rfl⟩
        · rw [refused]
  · rw [Exec.bind_error missing]

theorem builtinIds_destroyProfile (distinct : (rows.map fun row => row.idSlug).Nodup) :
    builtinIds (destroyProfile site request rows).2 = builtinIds rows := by
  unfold destroyProfile
  rcases findRow_cases (fun row : StoredProfile => row.idSlug)
    (textColumn site.env.casts (param request "id")) rows with ⟨profile, member, _, found⟩ |
      ⟨raised, missing⟩
  · rw [Exec.bind_ok found]
    split_ifs with builtin
    · rfl
    · apply builtinIds_filter
      intro row among isBuiltin
      apply decide_eq_true
      intro same
      rw [Rows.eq_of_key_eq (List.pairwise_map.mp distinct) among member same] at isBuiltin
      exact builtin isBuiltin
  · rw [Exec.bind_error missing]

end

/-! ## Runs -/

section

variable {state : State}

theorem builtinIds_act (sound : Sound state) (visit : Visit) (action : Action) :
    builtinIds (visit.act action state).2.profiles = builtinIds state.profiles := by
  cases action with
  | profiles change =>
      cases change with
      | create =>
          refine (congrArg builtinIds (recordedIf_state _ _)).trans ?_
          exact builtinIds_createProfile state.profiles
      | update =>
          refine (congrArg builtinIds (recordedIf_state _ _)).trans ?_
          exact builtinIds_updateProfile sound.profiles.distinct
      | destroy =>
          refine (congrArg builtinIds (recordedIf_state _ _)).trans ?_
          exact builtinIds_destroyProfile sound.profiles.distinct
  | _ => rfl

theorem builtinIds_next {target : State} {happening : Happening} (sound : Sound state)
    (step : next state happening = some target) :
    builtinIds target.profiles = builtinIds state.profiles := by
  rcases next_cases step with ⟨visit, action, _, _, rfl⟩ | aside
  · rw [builtinIds_act (sound.begun visit action) visit action, Visit.profiles_begun]
  · rw [aside.profiles]

end

/-- A run keeps the installation sound and the ids of its built-in profiles. -/
theorem builtinIds_run {start target : State} {happenings : List Happening}
    (sound : Sound start) (executed : run next start happenings = some target) :
    Sound target ∧ builtinIds target.profiles = builtinIds start.profiles := by
  let Kept : State → Prop := fun state =>
    Sound state ∧ builtinIds state.profiles = builtinIds start.profiles
  have keep : ∀ state happening reached, Kept state → next state happening = some reached →
      Kept reached := by
    rintro state happening reached ⟨soundState, same⟩ step
    exact ⟨soundState.next step, (builtinIds_next soundState step).trans same⟩
  exact run_preserves keep ⟨sound, rfl⟩ executed

/-- The built-in profiles are the same after every run: none is deleted, gets another
id or joins them.  So `AGENT_READY` stays once it was ensured. -/
theorem builtinIds_of_run {start target : State} {happenings : List Happening}
    (sound : Sound start) (executed : run next start happenings = some target) :
    builtinIds target.profiles = builtinIds start.profiles ∧
      ∀ profiles, start.profiles = ensureBuiltin profiles →
        (∀ profile ∈ profiles, profile.idSlug = AGENT_READY.idSlug →
          profile.builtin = some true) →
        AGENT_READY.idSlug ∈ builtinIds target.profiles := by
  have same := (builtinIds_run sound executed).2
  refine ⟨same, ?_⟩
  intro profiles ensured free
  rw [same, ensured]
  exact mem_builtinIds_ensureBuiltin free

/-- The owner tries to delete the built-in profile. -/
def deletion : List Happening :=
  [.signIn firstSignIn,
    .visit (signedIn "0000" ⟨"DELETE", "/profiles/agent-ready",
      .object [("id", .string "agent-ready")]⟩) (.profiles .destroy)]

def withBuiltin : State := { first emptyDisk with profiles := [AGENT_READY] }

theorem sound_withBuiltin : Sound withBuiltin :=
  { sound_first emptyDisk with
    profiles := ⟨List.nodup_singleton _, fun profile member => by
      rw [List.mem_singleton.mp member]
      exact ⟨by decide, by decide, by decide, by decide, by decide⟩⟩ }

theorem builtinIds_of_run_deletion :
    ∃ target, run next withBuiltin deletion = some target ∧
      builtinIds target.profiles = builtinIds withBuiltin.profiles ∧
      AGENT_READY.idSlug ∈ builtinIds target.profiles := by
  have result := @builtinIds_of_run _ _ deletion sound_withBuiltin rfl
  refine ⟨_, rfl, result.1, result.2 [] rfl ?_⟩
  intro profile member
  exact absurd member List.not_mem_nil

end MultipassWebui.Installation
