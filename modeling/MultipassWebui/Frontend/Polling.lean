import MultipassWebui.Frontend.Intervals
import MultipassWebui.Transition.Run

/-!
# The polling controller

The Stimulus controller that refreshes a frame at an interval, on a page that can be
hidden.  An instance has a timer of its own and two listeners on the document, one of
which it can take away again.
-/

namespace MultipassWebui.Frontend.Polling

open MultipassWebui.Transition

/-- The values of the element: `static values = { interval: Number, frameId: String }`. -/
structure Values where
  interval : Nat
  frameId : String
  deriving DecidableEq, Repr

/-- An instance of the controller. -/
structure Controller where
  values : Values
  /-- `this.timer`, which is `null` without a timer. -/
  timer : Option Nat
  /-- How often `this.onVisibilityChange` was bound; each time is another function. -/
  bound : Nat
  connected : Bool
  deriving DecidableEq, Repr

/-- What `document.addEventListener` was called with. -/
inductive Listener where
  | onVisibilityChange (owner bound : Nat)
  /-- The arrow function of `connect`, which nobody else holds. -/
  | refreshOnFocus (owner : Nat)
  deriving DecidableEq, Repr

/-- What `setInterval` was called with. -/
structure Interval where
  owner : Nat
  period : Nat
  deriving DecidableEq, Repr

/-- A call of `refresh`: the visit goes to the source of the frame, if there is one. -/
structure Refresh where
  owner : Nat
  frameId : String
  src : Option String
  deriving DecidableEq, Repr

structure Page where
  visible : Bool
  /-- The sources of the frames, by their ids. -/
  frames : String → Option String
  controllers : Nat → Controller
  listeners : List Listener
  timers : Intervals Interval
  refreshes : List Refresh

/-! ## The controller -/

namespace Page

/-- Assign to the fields of an instance. -/
def assign (page : Page) (i : Nat) (f : Controller → Controller) : Page :=
  { page with
    controllers := fun j => if j = i then f (page.controllers j) else page.controllers j }

/-- `refresh` -/
def refresh (page : Page) (i : Nat) : Page :=
  let frameId := (page.controllers i).values.frameId
  { page with refreshes := page.refreshes ++ [⟨i, frameId, page.frames frameId⟩] }

/-- `start` -/
def start (page : Page) (i : Nat) : Page :=
  match (page.controllers i).timer with
  | some _ => page
  | none =>
      let timer := page.timers.next
      let timers := page.timers.set ⟨i, (page.controllers i).values.interval⟩
      { page with timers }.assign i fun controller => { controller with timer := some timer }

/-- `stop` -/
def stop (page : Page) (i : Nat) : Page :=
  match (page.controllers i).timer with
  | none => page
  | some timer =>
      { page with timers := page.timers.clear timer }.assign i fun controller =>
        { controller with timer := none }

/-- `onVisibilityChange` -/
def onVisibilityChange (page : Page) (i : Nat) : Page :=
  if page.visible then page.start i else page.stop i

def addEventListener (page : Page) (listener : Listener) : Page :=
  { page with listeners := page.listeners ++ [listener] }

def removeEventListener (page : Page) (listener : Listener) : Page :=
  { page with listeners := page.listeners.erase listener }

/-- `connect` -/
def connect (page : Page) (i : Nat) : Page :=
  let page := page.assign i fun controller =>
    { controller with timer := none, bound := controller.bound + 1, connected := true }
  let page := page.addEventListener (.onVisibilityChange i (page.controllers i).bound)
  let page := page.start i
  page.addEventListener (.refreshOnFocus i)

/-- `disconnect` -/
def disconnect (page : Page) (i : Nat) : Page :=
  let page := page.stop i
  let page := page.removeEventListener (.onVisibilityChange i (page.controllers i).bound)
  page.assign i fun controller => { controller with connected := false }

/-- The call of a listener. -/
def call (page : Page) : Listener → Page
  | .onVisibilityChange i _ => page.onVisibilityChange i
  | .refreshOnFocus i => if page.visible then page.refresh i else page

end Page

/-! ## The page -/

inductive Action where
  | connect (i : Nat)
  | disconnect (i : Nat)
  /-- The page is hidden or shown, and the listeners are called in their order. -/
  | visibilitychange
  /-- A running timer fires. -/
  | fire (timer : Nat)
  deriving DecidableEq, Repr

/-- Stimulus connects and disconnects an instance by turns. -/
def step : Step Page Action := fun page action =>
  match action with
  | .connect i => if (page.controllers i).connected then none else some (page.connect i)
  | .disconnect i => if (page.controllers i).connected then some (page.disconnect i) else none
  | .visibilitychange =>
      some (page.listeners.foldl Page.call { page with visible := !page.visible })
  | .fire timer => (page.timers.find? timer).map fun interval => page.refresh interval.owner

/-- A page before any instance is connected. -/
def initial (visible : Bool) (frames : String → Option String) (values : Nat → Values) : Page where
  visible := visible
  frames := frames
  controllers i := ⟨values i, none, 0, false⟩
  listeners := []
  timers := Intervals.empty
  refreshes := []

/-! ## What is asked of a run -/

namespace Page

/-- The running timers of an instance. -/
def liveTimers (page : Page) (i : Nat) : Nat :=
  page.timers.active.countP fun timer => timer.2.owner = i

/-- How often an instance has called `refresh`. -/
def calls (page : Page) (i : Nat) : Nat :=
  page.refreshes.countP fun refresh => refresh.owner = i

/-- An instance has one timer if it is connected and the page is visible, and none
otherwise. -/
def Polls (page : Page) : Prop :=
  ∀ i, page.liveTimers i = if (page.controllers i).connected && page.visible then 1 else 0

/-- An instance that is not connected does not refresh, and a change to visible makes
every connected one refresh once. -/
def RefreshesWell (page : Page) (action : Action) : Prop :=
  ∀ target, step page action = some target →
    (∀ i, (page.controllers i).connected = false → target.calls i = page.calls i) ∧
    (action = .visibilitychange → page.visible = false →
      ∀ i, (page.controllers i).connected = true → target.calls i = page.calls i + 1)

/-- No instance is connected while the page is hidden, and the page is not shown again
once an instance was disconnected. -/
def Harmless (page : Page) : Action → Prop
  | .connect _ => page.visible = true
  | .visibilitychange =>
      page.visible = false →
        ∀ i, (page.controllers i).bound = if (page.controllers i).connected then 1 else 0
  | _ => True

/-! ## Timers -/

/-- The variables of the instances name the running timers. -/
structure Timed (page : Page) : Prop where
  owned : ∀ timer ∈ page.timers.active,
    (page.controllers timer.2.owner).timer = some timer.1
  running : ∀ i id, (page.controllers i).timer = some id →
    ∃ interval, (id, interval) ∈ page.timers.active ∧ interval.owner = i

variable {page : Page}

theorem Timed.liveTimers_eq (timed : page.Timed) (i : Nat) :
    page.liveTimers i = if (page.controllers i).timer.isSome then 1 else 0 := by
  cases held : (page.controllers i).timer with
  | none =>
      apply List.countP_eq_zero.mpr
      intro timer running counted
      have names := timed.owned timer running
      rw [of_decide_eq_true counted, held] at names
      cases names
  | some id =>
      rcases timed.running i id held with ⟨interval, running, isOwner⟩
      apply Intervals.countP_active_eq_one running (decide_eq_true isOwner)
      intro other otherRunning counted
      have names := timed.owned other otherRunning
      rw [of_decide_eq_true counted, held] at names
      exact (Option.some.inj names).symm

/-- A new timer for an instance without one. -/
theorem Timed.start (timed : page.Timed) (i : Nat) : (page.start i).Timed := by
  rw [Page.start]
  split
  · exact timed
  · rename_i idle
    constructor
    · intro timer running
      rcases Intervals.mem_set.mp running with earlier | rfl
      · have names := timed.owned timer earlier
        have other : timer.2.owner ≠ i := by
          intro same
          rw [same, idle] at names
          cases names
        change (if timer.2.owner = i then _ else page.controllers timer.2.owner).timer = _
        rw [if_neg other]
        exact names
      · change (if i = i then _ else page.controllers i).timer = _
        rw [if_pos rfl]
    · intro j id held
      change (if j = i then _ else page.controllers j).timer = _ at held
      by_cases same : j = i
      · rw [if_pos same] at held
        cases held
        exact ⟨_, Intervals.mem_set.mpr (Or.inr rfl), same.symm⟩
      · rw [if_neg same] at held
        rcases timed.running j id held with ⟨interval, running, isOwner⟩
        exact ⟨interval, Intervals.mem_set.mpr (Or.inl running), isOwner⟩

theorem Timed.stop (timed : page.Timed) (i : Nat) : (page.stop i).Timed := by
  rw [Page.stop]
  split
  · exact timed
  · rename_i id held
    constructor
    · intro timer running
      rcases Intervals.mem_clear.mp running with ⟨earlier, different⟩
      have names := timed.owned timer earlier
      have other : timer.2.owner ≠ i := by
        intro same
        rw [same, held] at names
        exact different (Option.some.inj names).symm
      change (if timer.2.owner = i then _ else page.controllers timer.2.owner).timer = _
      rw [if_neg other]
      exact names
    · intro j other heldByJ
      change (if j = i then _ else page.controllers j).timer = _ at heldByJ
      by_cases same : j = i
      · rw [if_pos same] at heldByJ
        cases heldByJ
      · rw [if_neg same] at heldByJ
        rcases timed.running j other heldByJ with ⟨interval, running, isOwner⟩
        refine ⟨interval, Intervals.mem_clear.mpr ⟨running, ?_⟩, isOwner⟩
        rintro rfl
        rcases timed.running i _ held with ⟨own, ownRunning, isI⟩
        have one := Intervals.eq_of_mem running ownRunning rfl
        cases one
        exact same (isOwner.symm.trans isI)

/-- Only the timers and the variables for them decide. -/
theorem Timed.of_eq {target : Page} (timed : page.Timed) (timers : target.timers = page.timers)
    (controllers : ∀ i, (target.controllers i).timer = (page.controllers i).timer) :
    target.Timed := by
  constructor
  · intro timer running
    rw [timers] at running
    rw [controllers]
    exact timed.owned timer running
  · intro i id held
    rw [controllers] at held
    rw [timers]
    exact timed.running i id held

/-! ## What a method leaves alone -/

/-- The listeners, and what they depend on, are the same. -/
structure SameWiring (page target : Page) : Prop where
  visible : target.visible = page.visible
  listeners : target.listeners = page.listeners
  connected : ∀ i, (target.controllers i).connected = (page.controllers i).connected
  bound : ∀ i, (target.controllers i).bound = (page.controllers i).bound

theorem SameWiring.refl (page : Page) : SameWiring page page :=
  ⟨rfl, rfl, fun _ => rfl, fun _ => rfl⟩

theorem SameWiring.trans {middle target : Page} (first : SameWiring page middle)
    (second : SameWiring middle target) : SameWiring page target where
  visible := second.visible.trans first.visible
  listeners := second.listeners.trans first.listeners
  connected i := (second.connected i).trans (first.connected i)
  bound i := (second.bound i).trans (first.bound i)

/-- Assigning to `this.timer` alone. -/
theorem sameWiring_assign (timers : Intervals Interval) (i : Nat) (timer : Option Nat) :
    SameWiring page ({ page with timers }.assign i fun controller =>
      { controller with timer := timer }) := by
  constructor
  · rfl
  · rfl
  · intro j
    change (if j = i then _ else page.controllers j).connected = _
    split
    · rfl
    · rfl
  · intro j
    change (if j = i then _ else page.controllers j).bound = _
    split
    · rfl
    · rfl

theorem sameWiring_start (page : Page) (i : Nat) : SameWiring page (page.start i) := by
  rw [Page.start]
  split
  · exact SameWiring.refl page
  · exact sameWiring_assign _ i _

theorem sameWiring_stop (page : Page) (i : Nat) : SameWiring page (page.stop i) := by
  rw [Page.stop]
  split
  · exact SameWiring.refl page
  · exact sameWiring_assign _ i _

theorem sameWiring_call (page : Page) (listener : Listener) :
    SameWiring page (page.call listener) := by
  cases listener with
  | onVisibilityChange i bound =>
      rw [Page.call, Page.onVisibilityChange]
      split
      · exact sameWiring_start page i
      · exact sameWiring_stop page i
  | refreshOnFocus i =>
      rw [Page.call]
      split
      · exact ⟨rfl, rfl, fun _ => rfl, fun _ => rfl⟩
      · exact SameWiring.refl page

/-! ## What a method does to one instance -/

theorem isSome_timer_start (page : Page) (i j : Nat) :
    ((page.start i).controllers j).timer.isSome =
      (decide (j = i) || (page.controllers j).timer.isSome) := by
  rw [Page.start]
  split
  · rename_i id held
    by_cases same : j = i
    · subst same
      rw [held]
      simp
    · simp [same]
  · change (if j = i then _ else page.controllers j).timer.isSome = _
    by_cases same : j = i
    · rw [if_pos same]
      simp [same]
    · rw [if_neg same]
      simp [same]

theorem isSome_timer_stop (page : Page) (i j : Nat) :
    ((page.stop i).controllers j).timer.isSome =
      (decide (j ≠ i) && (page.controllers j).timer.isSome) := by
  rw [Page.stop]
  split
  · rename_i idle
    by_cases same : j = i
    · subst same
      rw [idle]
      simp
    · simp [same]
  · change (if j = i then _ else page.controllers j).timer.isSome = _
    by_cases same : j = i
    · rw [if_pos same]
      simp [same]
    · rw [if_neg same]
      simp [same]

theorem calls_start (page : Page) (i j : Nat) : (page.start i).calls j = page.calls j := by
  rw [Page.start]
  split
  · rfl
  · rfl

theorem calls_stop (page : Page) (i j : Nat) : (page.stop i).calls j = page.calls j := by
  rw [Page.stop]
  split
  · rfl
  · rfl

theorem calls_refresh (page : Page) (i j : Nat) :
    (page.refresh i).calls j = page.calls j + if i = j then 1 else 0 := by
  rw [calls, Page.refresh, List.countP_append, List.countP_singleton, ← calls]
  simp

/-! ## The listeners -/

/-- The listener is the bound method of the instance. -/
def isSwitchOf (i : Nat) : Listener → Bool
  | .onVisibilityChange owner _ => owner = i
  | .refreshOnFocus _ => false

theorem Timed.call (timed : page.Timed) (listener : Listener) : (page.call listener).Timed := by
  cases listener with
  | onVisibilityChange i bound =>
      rw [Page.call, Page.onVisibilityChange]
      split
      · exact timed.start i
      · exact timed.stop i
  | refreshOnFocus i =>
      rw [Page.call]
      split
      · exact timed.of_eq rfl fun _ => rfl
      · exact timed

/-- The method leaves its instance with a timer exactly if the page is visible. -/
theorem isSome_timer_call (page : Page) (listener : Listener) (j : Nat) :
    ((page.call listener).controllers j).timer.isSome =
      if isSwitchOf j listener then page.visible else (page.controllers j).timer.isSome := by
  cases listener with
  | onVisibilityChange i bound =>
      rw [Page.call, Page.onVisibilityChange, isSwitchOf]
      cases shown : page.visible with
      | true =>
          rw [if_pos rfl, isSome_timer_start]
          by_cases same : i = j
          · simp [same]
          · simp [same, Ne.symm same]
      | false =>
          rw [if_neg Bool.false_ne_true, isSome_timer_stop]
          by_cases same : i = j
          · simp [same]
          · simp [same, Ne.symm same]
  | refreshOnFocus i =>
      rw [Page.call, isSwitchOf, if_neg Bool.false_ne_true]
      split
      · rfl
      · rfl

theorem calls_call (page : Page) (listener : Listener) (j : Nat) :
    (page.call listener).calls j =
      page.calls j + if page.visible ∧ listener = .refreshOnFocus j then 1 else 0 := by
  cases listener with
  | onVisibilityChange i bound =>
      have other : ¬ (page.visible = true ∧
          Listener.onVisibilityChange i bound = .refreshOnFocus j) := by
        rintro ⟨_, same⟩
        cases same
      rw [Page.call, Page.onVisibilityChange, if_neg other]
      split
      · exact calls_start page i j
      · exact calls_stop page i j
  | refreshOnFocus i =>
      rw [Page.call]
      cases shown : page.visible with
      | true =>
          rw [if_pos rfl, calls_refresh]
          simp
      | false =>
          rw [if_neg Bool.false_ne_true]
          simp

/-- Call the listeners in their order. -/
def dispatch (page : Page) (listeners : List Listener) : Page := listeners.foldl Page.call page

theorem Timed.dispatch (timed : page.Timed) (listeners : List Listener) :
    (page.dispatch listeners).Timed := by
  induction listeners generalizing page with
  | nil => exact timed
  | cons listener rest ih => exact ih (timed.call listener)

theorem sameWiring_dispatch (page : Page) (listeners : List Listener) :
    SameWiring page (page.dispatch listeners) := by
  induction listeners generalizing page with
  | nil => exact SameWiring.refl page
  | cons listener rest ih => exact (sameWiring_call page listener).trans (ih _)

theorem isSome_timer_dispatch (page : Page) (listeners : List Listener) (j : Nat) :
    ((page.dispatch listeners).controllers j).timer.isSome =
      if listeners.any (isSwitchOf j) then page.visible
      else (page.controllers j).timer.isSome := by
  induction listeners generalizing page with
  | nil => rfl
  | cons listener rest ih =>
      have later := ih (page.call listener)
      rw [(sameWiring_call page listener).visible, isSome_timer_call] at later
      rw [List.any_cons]
      refine Eq.trans later ?_
      cases isSwitchOf j listener with
      | true => simp
      | false => simp

theorem calls_dispatch (page : Page) (listeners : List Listener) (j : Nat) :
    (page.dispatch listeners).calls j =
      page.calls j + if page.visible then listeners.count (.refreshOnFocus j) else 0 := by
  induction listeners generalizing page with
  | nil => simp [dispatch]
  | cons listener rest ih =>
      have later := ih (page.call listener)
      rw [(sameWiring_call page listener).visible, calls_call] at later
      refine Eq.trans later ?_
      rw [List.count_cons]
      cases page.visible with
      | true =>
          by_cases isRefresh : listener = .refreshOnFocus j
          · simp [isRefresh]
            omega
          · simp [isRefresh]
      | false => simp

/-! ## The wiring -/

/-- A connected instance has its method on the document once, and every connection so
far has left a function that refreshes. -/
structure Wired (page : Page) : Prop where
  timed : page.Timed
  idle : ∀ i, (page.controllers i).connected = false → (page.controllers i).timer = none
  listening : ∀ i bound, page.listeners.count (.onVisibilityChange i bound) =
    if (page.controllers i).connected ∧ bound = (page.controllers i).bound then 1 else 0
  focusing : ∀ i, page.listeners.count (.refreshOnFocus i) = (page.controllers i).bound

theorem wired_initial (visible : Bool) (frames : String → Option String)
    (values : Nat → Values) : (initial visible frames values).Wired where
  timed := ⟨fun _ running => absurd running List.not_mem_nil, fun _ _ held => by cases held⟩
  idle _ _ := rfl
  listening _ _ := rfl
  focusing _ := rfl

/-- Exactly the connected instances have a method on the document. -/
theorem Wired.any_isSwitchOf (wired : page.Wired) (i : Nat) :
    page.listeners.any (isSwitchOf i) = (page.controllers i).connected := by
  rw [Bool.eq_iff_iff, List.any_eq_true]
  constructor
  · rintro ⟨listener, member, isSwitch⟩
    cases listener with
    | onVisibilityChange owner bound =>
        have same := of_decide_eq_true isSwitch
        subst same
        have counted := wired.listening owner bound
        by_contra alone
        rw [if_neg fun both => alone both.1, List.count_eq_zero] at counted
        exact counted member
    | refreshOnFocus owner => cases isSwitch
  · intro connected
    have counted := wired.listening i (page.controllers i).bound
    rw [if_pos ⟨connected, rfl⟩] at counted
    have member := List.count_pos_iff.mp (counted ▸ Nat.one_pos)
    exact ⟨_, member, decide_eq_true rfl⟩

/-! ## Connecting -/

/-- The page when `connect` calls `start`. -/
def rebind (page : Page) (i : Nat) : Page :=
  let page := page.assign i fun controller =>
    { controller with timer := none, bound := controller.bound + 1, connected := true }
  page.addEventListener (.onVisibilityChange i (page.controllers i).bound)

theorem connect_eq (page : Page) (i : Nat) :
    page.connect i = ((page.rebind i).start i).addEventListener (.refreshOnFocus i) :=
  rfl

theorem controllers_rebind (page : Page) (i j : Nat) :
    (page.rebind i).controllers j =
      if j = i then { page.controllers j with
        timer := none, bound := (page.controllers j).bound + 1, connected := true }
      else page.controllers j :=
  rfl

theorem listeners_connect (page : Page) (i : Nat) :
    (page.connect i).listeners = page.listeners ++
      [.onVisibilityChange i ((page.controllers i).bound + 1), .refreshOnFocus i] := by
  have first : (page.rebind i).listeners =
      page.listeners ++ [.onVisibilityChange i ((page.controllers i).bound + 1)] := by
    change page.listeners ++ [.onVisibilityChange i ((page.rebind i).controllers i).bound] = _
    rw [controllers_rebind, if_pos rfl]
  rw [connect_eq, addEventListener, (sameWiring_start (page.rebind i) i).listeners, first,
    List.append_assoc]
  rfl

theorem visible_connect (page : Page) (i : Nat) : (page.connect i).visible = page.visible :=
  (sameWiring_start (page.rebind i) i).visible

theorem calls_connect (page : Page) (i j : Nat) : (page.connect i).calls j = page.calls j :=
  calls_start (page.rebind i) i j

theorem connected_connect (page : Page) (i j : Nat) :
    ((page.connect i).controllers j).connected =
      (decide (j = i) || (page.controllers j).connected) := by
  refine ((sameWiring_start (page.rebind i) i).connected j).trans ?_
  rw [controllers_rebind]
  by_cases same : j = i
  · simp [same]
  · simp [same]

theorem bound_connect (page : Page) (i j : Nat) :
    ((page.connect i).controllers j).bound =
      (page.controllers j).bound + if j = i then 1 else 0 := by
  refine ((sameWiring_start (page.rebind i) i).bound j).trans ?_
  rw [controllers_rebind]
  by_cases same : j = i
  · simp [same]
  · simp [same]

theorem isSome_timer_connect (page : Page) (i j : Nat) :
    ((page.connect i).controllers j).timer.isSome =
      (decide (j = i) || (page.controllers j).timer.isSome) := by
  refine (isSome_timer_start (page.rebind i) i j).trans ?_
  rw [controllers_rebind]
  by_cases same : j = i
  · simp [same]
  · simp [same]

theorem Wired.connect (wired : page.Wired) {i : Nat}
    (apart : (page.controllers i).connected = false) : (page.connect i).Wired := by
  constructor
  · have rebound : (page.rebind i).Timed := by
      refine @Timed.of_eq page (page.rebind i) wired.timed rfl fun j => ?_
      rw [controllers_rebind]
      split
      · rename_i same
        rw [same]
        exact (wired.idle i apart).symm
      · rfl
    exact (rebound.start i).of_eq rfl fun _ => rfl
  · intro j unconnected
    rw [connected_connect, Bool.or_eq_false_iff] at unconnected
    rw [← Option.isNone_iff_eq_none, ← Option.isSome_eq_false_iff, isSome_timer_connect,
      unconnected.1, wired.idle j unconnected.2]
    rfl
  · intro j b
    rw [listeners_connect, List.count_append, wired.listening, connected_connect, bound_connect]
    by_cases same : j = i
    · subst same
      by_cases current : b = (page.controllers j).bound + 1
      · simp [apart, current]
      · simp [apart, current, Ne.symm current]
    · simp [same, Ne.symm same]
  · intro j
    rw [listeners_connect, List.count_append, wired.focusing, bound_connect]
    by_cases same : j = i
    · simp [same]
    · simp [same, Ne.symm same]

/-! ## Disconnecting -/

theorem controllers_disconnect (page : Page) (i j : Nat) :
    (page.disconnect i).controllers j =
      if j = i then { (page.stop i).controllers j with connected := false }
      else (page.stop i).controllers j :=
  rfl

theorem listeners_disconnect (page : Page) (i : Nat) :
    (page.disconnect i).listeners =
      page.listeners.erase (.onVisibilityChange i (page.controllers i).bound) := by
  rw [← (sameWiring_stop page i).bound i, ← (sameWiring_stop page i).listeners]
  rfl

theorem visible_disconnect (page : Page) (i : Nat) :
    (page.disconnect i).visible = page.visible :=
  (sameWiring_stop page i).visible

theorem calls_disconnect (page : Page) (i j : Nat) : (page.disconnect i).calls j = page.calls j :=
  calls_stop page i j

theorem connected_disconnect (page : Page) (i j : Nat) :
    ((page.disconnect i).controllers j).connected =
      (decide (j ≠ i) && (page.controllers j).connected) := by
  rw [controllers_disconnect, ← (sameWiring_stop page i).connected j]
  by_cases same : j = i
  · simp [same]
  · simp [same]

theorem bound_disconnect (page : Page) (i j : Nat) :
    ((page.disconnect i).controllers j).bound = (page.controllers j).bound := by
  rw [controllers_disconnect, ← (sameWiring_stop page i).bound j]
  split
  · rfl
  · rfl

theorem timer_disconnect (page : Page) (i j : Nat) :
    ((page.disconnect i).controllers j).timer = ((page.stop i).controllers j).timer := by
  rw [controllers_disconnect]
  split
  · rfl
  · rfl

theorem Wired.disconnect (wired : page.Wired) {i : Nat}
    (connected : (page.controllers i).connected = true) : (page.disconnect i).Wired := by
  constructor
  · exact (wired.timed.stop i).of_eq rfl (timer_disconnect page i)
  · intro j unconnected
    rw [connected_disconnect, Bool.and_eq_false_iff] at unconnected
    rw [← Option.isNone_iff_eq_none, ← Option.isSome_eq_false_iff, timer_disconnect,
      isSome_timer_stop]
    rcases unconnected with isOwner | before
    · rw [isOwner]
      rfl
    · rw [wired.idle j before]
      exact Bool.and_false _
  · intro j b
    rw [listeners_disconnect, List.count_erase, wired.listening, connected_disconnect,
      bound_disconnect]
    by_cases same : j = i
    · subst same
      by_cases current : b = (page.controllers j).bound
      · simp [connected, current]
      · simp [connected, current]
    · simp [same, Ne.symm same]
  · intro j
    rw [listeners_disconnect, List.count_erase, wired.focusing, bound_disconnect]
    simp

/-! ## Hiding and showing -/

/-- The page with the other visibility. -/
def turned (page : Page) : Page := { page with visible := !page.visible }

theorem sameWiring_turn (page : Page) (i : Nat) :
    let target := page.turned.dispatch page.listeners
    target.visible = !page.visible ∧ target.listeners = page.listeners ∧
      (target.controllers i).connected = (page.controllers i).connected ∧
      (target.controllers i).bound = (page.controllers i).bound := by
  have same := sameWiring_dispatch page.turned page.listeners
  exact ⟨same.visible, same.listeners, same.connected i, same.bound i⟩

/-- A connected instance has a timer afterwards exactly if the page is now visible. -/
theorem Wired.isSome_timer_turn (wired : page.Wired) (i : Nat) :
    ((page.turned.dispatch page.listeners).controllers i).timer.isSome =
      ((page.controllers i).connected && !page.visible) := by
  rw [isSome_timer_dispatch, wired.any_isSwitchOf]
  cases connected : (page.controllers i).connected with
  | true => rfl
  | false =>
      change (page.controllers i).timer.isSome = _
      rw [wired.idle i connected]
      rfl

/-- Every connection so far refreshes when the page is shown. -/
theorem Wired.calls_turn (wired : page.Wired) (i : Nat) :
    (page.turned.dispatch page.listeners).calls i =
      page.calls i + if page.visible then 0 else (page.controllers i).bound := by
  rw [calls_dispatch, wired.focusing]
  change page.calls i + (if (!page.visible) = true then _ else 0) = _
  cases page.visible with
  | true => rfl
  | false => rfl

theorem Wired.turn (wired : page.Wired) : (page.turned.dispatch page.listeners).Wired := by
  constructor
  · have timed : page.turned.Timed := wired.timed.of_eq rfl fun _ => rfl
    exact timed.dispatch page.listeners
  · intro i unconnected
    rw [(sameWiring_turn page i).2.2.1] at unconnected
    rw [← Option.isNone_iff_eq_none, ← Option.isSome_eq_false_iff, wired.isSome_timer_turn,
      unconnected]
    rfl
  · intro i bound
    rcases sameWiring_turn page i with ⟨_, listeners, connected, current⟩
    rw [listeners, connected, current]
    exact wired.listening i bound
  · intro i
    rcases sameWiring_turn page i with ⟨_, listeners, _, current⟩
    rw [listeners, current]
    exact wired.focusing i

/-! ## Runs -/

variable {action : Action} {target : Page}

theorem step_connect_iff {i : Nat} : step page (.connect i) = some target ↔
    (page.controllers i).connected = false ∧ target = page.connect i := by
  rw [step]
  cases (page.controllers i).connected with
  | true => simp
  | false => simp [eq_comm]

theorem step_disconnect_iff {i : Nat} : step page (.disconnect i) = some target ↔
    (page.controllers i).connected = true ∧ target = page.disconnect i := by
  rw [step]
  cases (page.controllers i).connected with
  | true => simp [eq_comm]
  | false => simp

theorem step_fire_iff {id : Nat} : step page (.fire id) = some target ↔
    ∃ interval, page.timers.find? id = some interval ∧ target = page.refresh interval.owner := by
  rw [step, Option.map_eq_some_iff]
  simp only [eq_comm]

theorem step_visibilitychange_iff : step page .visibilitychange = some target ↔
    target = page.turned.dispatch page.listeners := by
  rw [step, Option.some.injEq, eq_comm]
  rfl

theorem Wired.step (wired : page.Wired) (stepped : step page action = some target) :
    target.Wired := by
  cases action with
  | connect i =>
      rcases step_connect_iff.mp stepped with ⟨apart, rfl⟩
      exact wired.connect apart
  | disconnect i =>
      rcases step_disconnect_iff.mp stepped with ⟨connected, rfl⟩
      exact wired.disconnect connected
  | visibilitychange =>
      rcases step_visibilitychange_iff.mp stepped with rfl
      exact wired.turn
  | fire id =>
      rcases step_fire_iff.mp stepped with ⟨interval, _, rfl⟩
      exact ⟨wired.timed.of_eq rfl fun _ => rfl, wired.idle, wired.listening, wired.focusing⟩

theorem Wired.polls_iff (wired : page.Wired) :
    page.Polls ↔ ∀ i, (page.controllers i).timer.isSome =
      ((page.controllers i).connected && page.visible) := by
  apply forall_congr'
  intro i
  rw [wired.timed.liveTimers_eq]
  cases (page.controllers i).timer.isSome with
  | true =>
      cases (page.controllers i).connected && page.visible with
      | true => simp
      | false => simp
  | false =>
      cases (page.controllers i).connected && page.visible with
      | true => simp
      | false => simp

theorem refreshesWell_iff (stepped : Polling.step page action = some target) :
    page.RefreshesWell action ↔
      (∀ i, (page.controllers i).connected = false → target.calls i = page.calls i) ∧
      (action = .visibilitychange → page.visible = false →
        ∀ i, (page.controllers i).connected = true → target.calls i = page.calls i + 1) := by
  constructor
  · intro well
    exact well target stepped
  · intro well other steppedOther
    rcases Option.some.inj (stepped.symm.trans steppedOther) with rfl
    exact well

/-- Connecting starts the timer, whether the page is visible or not. -/
theorem Wired.harmless_connect (wired : page.Wired) (polls : page.Polls) {i : Nat}
    (apart : (page.controllers i).connected = false) :
    (page.connect i).Polls ↔ page.visible = true := by
  rw [wired.polls_iff] at polls
  rw [(wired.connect apart).polls_iff]
  constructor
  · intro after
    have here := after i
    rw [isSome_timer_connect, connected_connect, visible_connect, decide_eq_true rfl] at here
    exact here.symm
  · intro shown j
    rw [isSome_timer_connect, connected_connect, visible_connect, polls, shown, Bool.and_true,
      Bool.and_true]

theorem Wired.harmless_disconnect (wired : page.Wired) (polls : page.Polls) {i : Nat}
    (connected : (page.controllers i).connected = true) : (page.disconnect i).Polls := by
  rw [wired.polls_iff] at polls
  rw [(wired.disconnect connected).polls_iff]
  intro j
  rw [timer_disconnect, isSome_timer_stop, connected_disconnect, visible_disconnect, polls,
    Bool.and_assoc]

theorem Wired.polls_turn (wired : page.Wired) : (page.turned.dispatch page.listeners).Polls := by
  rw [wired.turn.polls_iff]
  intro i
  rcases sameWiring_turn page i with ⟨visible, _, connected, _⟩
  rw [wired.isSome_timer_turn, visible, connected]

/-- Showing the page is answered well exactly if no earlier connection is left. -/
theorem Wired.refreshesWell_turn (wired : page.Wired) :
    page.RefreshesWell .visibilitychange ↔ page.Harmless .visibilitychange := by
  rw [refreshesWell_iff (step_visibilitychange_iff.mpr rfl), Harmless]
  simp only [wired.calls_turn]
  cases page.visible with
  | true => simp
  | false =>
      constructor
      · rintro ⟨apart, connected⟩ _ i
        cases isConnected : (page.controllers i).connected with
        | true =>
            have once := connected trivial rfl i isConnected
            simpa using once
        | false =>
            have never := apart i isConnected
            simpa using never
      · intro left
        constructor
        · intro i isApart
          simp [left rfl i, isApart]
        · intro _ _ i isConnected
          simp [left rfl i, isConnected]

/-- A timer that fires belongs to a connected instance. -/
theorem Wired.refreshesWell_fire (wired : page.Wired) {id : Nat} {interval : Interval}
    (found : page.timers.find? id = some interval) : page.RefreshesWell (.fire id) := by
  rw [refreshesWell_iff (step_fire_iff.mpr ⟨interval, found, rfl⟩)]
  constructor
  · intro i apart
    have names := wired.timed.owned _ (Intervals.mem_of_find? found)
    have other : interval.owner ≠ i := by
      rintro rfl
      rw [wired.idle _ apart] at names
      cases names
    rw [calls_refresh, if_neg other, Nat.add_zero]
  · intro isTurn
    cases isTurn

/-- The step lemma: a step keeps what is asked exactly if it is harmless. -/
theorem Wired.harmless_iff (wired : page.Wired) (polls : page.Polls)
    (stepped : Polling.step page action = some target) :
    target.Polls ∧ page.RefreshesWell action ↔ page.Harmless action := by
  cases action with
  | connect i =>
      rcases step_connect_iff.mp stepped with ⟨apart, rfl⟩
      have quiet : page.RefreshesWell (.connect i) := by
        rw [refreshesWell_iff stepped]
        exact ⟨fun j _ => calls_connect page i j, fun isTurn => by cases isTurn⟩
      rw [wired.harmless_connect polls apart, Harmless, and_iff_left quiet]
  | disconnect i =>
      rcases step_disconnect_iff.mp stepped with ⟨connected, rfl⟩
      have quiet : page.RefreshesWell (.disconnect i) := by
        rw [refreshesWell_iff stepped]
        exact ⟨fun j _ => calls_disconnect page i j, fun isTurn => by cases isTurn⟩
      exact iff_of_true ⟨wired.harmless_disconnect polls connected, quiet⟩ trivial
  | visibilitychange =>
      rcases step_visibilitychange_iff.mp stepped with rfl
      rw [and_iff_right wired.polls_turn]
      exact wired.refreshesWell_turn
  | fire id =>
      rcases step_fire_iff.mp stepped with ⟨interval, found, rfl⟩
      exact iff_of_true ⟨polls, wired.refreshesWell_fire found⟩ trivial

end Page

variable (visible : Bool) (frames : String → Option String) (values : Nat → Values)

theorem polls_initial : (initial visible frames values).Polls := by
  intro i
  rfl

/-- A run polls and refreshes well exactly if each of its steps is harmless. -/
theorem polls_and_refreshes_iff (actions : List Action) :
    Always step Page.Polls (initial visible frames values) actions ∧
        Throughout step Page.RefreshesWell (initial visible frames values) actions ↔
      Throughout step Page.Harmless (initial visible frames values) actions :=
  always_and_throughout_iff (fun _ _ _ wired stepped => wired.step stepped)
    (fun _ _ _ wired polls stepped => wired.harmless_iff polls stepped)
    (Page.wired_initial visible frames values) (polls_initial visible frames values)

/-- An instance that is gone refreshes when the page is shown again. -/
theorem leaked_listener :
    ¬ ∀ (frames : String → Option String) (values : Nat → Values) (actions : List Action),
      Throughout step Page.RefreshesWell (initial true frames values) actions := by
  intro always
  have steps := always (fun _ => none) (fun _ => ⟨3000, "tree"⟩)
    [.connect 0, .disconnect 0, .visibilitychange, .visibilitychange]
  have well := @Throughout.at_step _ _ step Page.RefreshesWell _ _ _
    [.connect 0, .disconnect 0, .visibilitychange] [] .visibilitychange steps rfl rfl
  have silent := (well _ rfl).1 0 rfl
  revert silent
  decide

end MultipassWebui.Frontend.Polling
