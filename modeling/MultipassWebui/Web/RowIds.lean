import MultipassWebui.Effect.Frame
import MultipassWebui.Web.AuditPayload
import MultipassWebui.Web.Replies

/-!
# The ids of the rows that a request writes

Whatever an action does, a row that it adds to the audit log has the id that was
drawn for the request.
-/

namespace MultipassWebui.Web

open MultipassWebui.Effect
open MultipassWebui.Encoding
open MultipassWebui.Multipass
open MultipassWebui.Records

/-- The log is extended by rows that have the drawn id. -/
def Stamped {σ : Type} (stamp : EventStamp) (before after : App σ) : Prop :=
  ∃ added, after.events = before.events ++ added ∧ ∀ event ∈ added, event.id = stamp.id

section

variable {σ α : Type} {stamp : EventStamp} {request : Request}

theorem Stamped.of_events_eq {before after : App σ} (same : after.events = before.events) :
    Stamped stamp before after :=
  ⟨[], by rw [same, List.append_nil], fun _ member => absurd member List.not_mem_nil⟩

instance isPreorder_stamped : IsPreorder (App σ) (Stamped stamp) where
  refl _ := Stamped.of_events_eq rfl
  trans := by
    rintro before middle after ⟨added, isMiddle, ids⟩ ⟨more, isAfter, moreIds⟩
    refine ⟨added ++ more, ?_, ?_⟩
    · rw [isAfter, isMiddle, List.append_assoc]
    · intro event member
      exact (List.mem_append.mp member).elim (ids event) (moreIds event)

/-! ## The parts of an action -/

theorem stamped_onState (body : Exec σ RubyError α) :
    Exec.Keeps (Stamped stamp) (onState body) :=
  fun _ => Stamped.of_events_eq rfl

theorem stamped_emitHttp (category action : String) (resource result detail : Option String) :
    Exec.Keeps (Stamped stamp)
      (emitHttp stamp request category action resource result detail :
        Exec (App σ) RubyError _) := by
  apply Exec.keeps_bind
  · intro app
    rcases Event.emit_log stamp (httpAttributes request category action resource result detail)
      app.events with kept | ⟨row, _, rowId, extended⟩
    · exact Stamped.of_events_eq kept
    · refine ⟨[row], extended, fun event member => ?_⟩
      rw [List.mem_singleton.mp member, rowId]
  · exact fun _ => Exec.keeps_pure _

theorem stamped_rescueCommand {body : Exec (App σ) RubyError PUnit}
    {handler : String → Exec (App σ) RubyError PUnit} (keepsBody : Exec.Keeps (Stamped stamp) body)
    (keepsHandler : ∀ message, Exec.Keeps (Stamped stamp) (handler message)) :
    Exec.Keeps (Stamped stamp) (rescueCommand body handler) := by
  apply Exec.keeps_rescue keepsBody
  intro error handled handles
  cases error with
  | commandError message =>
      cases handles
      exact keepsHandler message
  | _ => cases handles

theorem stamped_rescueArgument {body : Exec (App σ) RubyError α}
    {handler : String → Exec (App σ) RubyError α} (keepsBody : Exec.Keeps (Stamped stamp) body)
    (keepsHandler : ∀ message, Exec.Keeps (Stamped stamp) (handler message)) :
    Exec.Keeps (Stamped stamp) (rescueArgument body handler) := by
  apply Exec.keeps_rescue keepsBody
  intro error handled handles
  cases error with
  | argumentError message =>
      cases handles
      exact keepsHandler message
  | _ => cases handles

/-- A clause for invalid records replies. -/
theorem stamped_rescueInvalid {α : Type} {body : Exec (App σ) RubyError α}
    (keepsBody : Exec.Keeps (Stamped stamp) body) (reply : α) :
    Exec.Keeps (Stamped stamp) (Exec.rescue body fun error =>
      if error.isRecordInvalid then some (pure reply) else none) := by
  apply Exec.keeps_rescue keepsBody
  intro error handled handles
  split_ifs at handles
  · cases handles
    exact Exec.keeps_pure _
  · cases handles

theorem stamped_recordedIf (category verb : String) (body : Exec σ RubyError (Option String)) :
    Exec.Keeps (Stamped stamp) (recordedIf stamp request category verb body) := by
  refine Exec.keeps_bind (stamped_onState body) fun saved => ?_
  cases saved with
  | none => exact Exec.keeps_pure _
  | some resource => exact stamped_emitHttp _ _ _ _ _

/-- A step on the state, and then its row. -/
theorem stamped_recorded {body : Exec σ RubyError α} {category verb : String}
    {resource result detail : α → Option String} :
    Exec.Keeps (Stamped stamp) (onState body >>= fun value =>
      emitHttp stamp request category verb (resource value) (result value) (detail value)) :=
  Exec.keeps_bind (stamped_onState body) fun _ => stamped_emitHttp _ _ _ _ _

end

/-! ## The actions -/

section

variable {stamp : EventStamp} {request : Request}

namespace VmsController

variable {env : Environment}

theorem stamped_withVmName {body : Json → Exec (App Host) RubyError PUnit}
    (keepsBody : ∀ name, Exec.Keeps (Stamped stamp) (body name)) :
    Exec.Keeps (Stamped stamp) (withVmName request body) := by
  unfold withVmName
  split_ifs
  · exact keepsBody _
  · exact Exec.keeps_pure _

theorem stamped_setIfPresent (key : String) (set : Int → Exec Host RubyError String) :
    Exec.Keeps (Stamped stamp) (setIfPresent request key set) := by
  unfold setIfPresent
  split_ifs
  · refine Exec.keeps_bind (Exec.keeps_ofExcept _) fun value => ?_
    exact Exec.keeps_bind (stamped_onState _) fun _ => Exec.keeps_pure _
  · exact Exec.keeps_pure _

theorem stamped_performLifecycle (method : Json → Exec Host RubyError String) (verb : String) :
    Exec.Keeps (Stamped stamp) (performLifecycle env stamp request method verb) := by
  refine stamped_withVmName fun name => ?_
  exact stamped_rescueCommand stamped_recorded fun _ => stamped_emitHttp _ _ _ _ _

theorem stamped_create : Exec.Keeps (Stamped stamp) (create env stamp request) := by
  apply Exec.keeps_rescue
  · exact Exec.keeps_bind (Exec.keeps_ofExcept _) fun _ => stamped_recorded
  · intro error handled handles
    cases error with
    | validationError name =>
        cases handles
        exact Exec.keeps_pure _
    | commandError message =>
        cases handles
        exact stamped_emitHttp _ _ _ _ _
    | _ => cases handles

theorem stamped_updateResourceConfig :
    Exec.Keeps (Stamped stamp) (updateResourceConfig env stamp request) := by
  refine stamped_withVmName fun name => ?_
  apply stamped_rescueCommand
  · refine Exec.keeps_bind (stamped_setIfPresent _ _) fun _ => ?_
    refine Exec.keeps_bind (stamped_setIfPresent _ _) fun _ => ?_
    exact Exec.keeps_bind (stamped_setIfPresent _ _) fun _ => stamped_emitHttp _ _ _ _ _
  · exact fun _ => Exec.keeps_pure _

theorem stamped_unrecorded {α : Type} (body : Exec Host RubyError α) :
    Exec.Keeps (Stamped stamp) (unrecorded body) := by
  apply stamped_rescueCommand
  · exact Exec.keeps_bind (stamped_onState _) fun _ => Exec.keeps_pure _
  · exact fun _ => Exec.keeps_pure _

theorem stamped_perform (action : Action) :
    Exec.Keeps (Stamped stamp) (perform env stamp request action) := by
  cases action with
  | create => exact stamped_create
  | destroy | clone =>
      refine stamped_withVmName fun name => ?_
      exact stamped_rescueCommand stamped_recorded fun _ => Exec.keeps_pure _
  | start | stop | suspend | recover => exact stamped_performLifecycle _ _
  | updateResourceConfig => exact stamped_updateResourceConfig
  | startAll | stopAll | purge => exact stamped_unrecorded _

end VmsController

namespace CloudInitTemplatesController

variable {site : Site}

theorem stamped_recorded {verb : String} {body : Exec Files.Disk RubyError String}
    {notice : String → String} : Exec.Keeps (Stamped stamp)
      (recorded stamp request verb body notice) := by
  refine Exec.keeps_bind (stamped_onState _) fun name => ?_
  exact Exec.keeps_bind (stamped_emitHttp _ _ _ _ _) fun _ => Exec.keeps_pure _

theorem stamped_perform (action : Action) :
    Exec.Keeps (Stamped stamp) (perform site stamp request action) := by
  cases action with
  | «show» | edit => exact Exec.keeps_bind (stamped_onState _) fun _ => Exec.keeps_pure _
  | create =>
      unfold perform create
      exact stamped_rescueArgument stamped_recorded fun _ => Exec.keeps_pure _
  | destroy =>
      unfold perform destroy
      exact stamped_rescueArgument stamped_recorded fun _ => Exec.keeps_pure _
  | update =>
      unfold perform update
      refine stamped_rescueArgument stamped_recorded fun message => ?_
      split_ifs
      · exact Exec.keeps_pure _
      · exact Exec.keeps_raise _

end CloudInitTemplatesController

namespace ShellSessionsController

theorem stamped_withVmName {body : String → Exec (App ShellHost) RubyError PUnit}
    (keepsBody : ∀ name, Exec.Keeps (Stamped stamp) (body name)) :
    Exec.Keeps (Stamped stamp) (withVmName request body) := by
  unfold withVmName
  split
  · split_ifs
    · exact keepsBody _
    · exact Exec.keeps_pure _
  · exact Exec.keeps_pure _

theorem stamped_create {env : Environment} {spawn : Terminals.SpawnEnvironment}
    {sessionId : String} :
    Exec.Keeps (Stamped stamp) (create env spawn sessionId stamp request) := by
  refine stamped_withVmName fun name => ?_
  refine Exec.keeps_bind (stamped_onState _) fun running => ?_
  split_ifs
  · apply Exec.keeps_rescue stamped_recorded
    intro error handled handles
    cases handles
    exact Exec.keeps_pure _
  · exact Exec.keeps_pure _

end ShellSessionsController

/-- A row that an action adds has the id that was drawn for the request. -/
theorem Action.stamped_perform (site : ActionEnvironment) (action : Action) :
    Exec.Keeps (Stamped stamp) (action.perform site stamp request) := by
  cases action with
  | updateSettings =>
      refine Exec.keeps_bind (stamped_rescueInvalid ?_ _) fun _ => Exec.keeps_pure _
      exact Exec.keeps_bind (stamped_onState _) fun _ =>
        Exec.keeps_bind (stamped_emitHttp _ _ _ _ _) fun _ => Exec.keeps_pure _
  | webhooks change => cases change <;> exact stamped_recordedIf _ _ _
  | profiles change => cases change <;> exact stamped_recordedIf _ _ _
  | schedules change => cases change <;> exact stamped_recordedIf _ _ _
  | createToken => exact stamped_rescueInvalid (stamped_recordedIf _ _ _) ⟨⟩
  | destroyToken => exact stamped_recordedIf _ _ _
  | templates action =>
      exact Exec.keeps_bind (CloudInitTemplatesController.stamped_perform action)
        fun _ => Exec.keeps_pure _
  | playbooks change =>
      cases change with
      | create | destroy => exact stamped_rescueArgument stamped_recorded fun _ => Exec.keeps_pure _
      | update =>
          refine stamped_rescueArgument stamped_recorded fun message => ?_
          split_ifs
          · exact Exec.keeps_pure _
          · exact Exec.keeps_raise _
  | vms action => exact VmsController.stamped_perform action
  | openShell => exact ShellSessionsController.stamped_create
  | closeShell => exact ShellSessionsController.stamped_withVmName fun _ => stamped_recorded

end

end MultipassWebui.Web
