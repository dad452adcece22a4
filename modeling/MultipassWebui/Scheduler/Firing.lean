import MultipassWebui.Records.Integrity
import MultipassWebui.Scheduler.Tick

/-!
# Firing over sequential runs

Ticks that do not overlap, at instants that do not go back, interleaved with
edits of the database.  The ledger of firings and the stored firing times
determine each other: a stored time is the latest firing of its row.  With that
invariant, a tick fires a schedule exactly when it should, unless the stored
time lies in another month or year but shows the same day, hour and minute.
-/

namespace MultipassWebui.Scheduler

open MultipassWebui.Calendar
open MultipassWebui.Effect
open MultipassWebui.Records
open MultipassWebui.Text
open MultipassWebui.Transition

/-! ## When a schedule is meant to fire -/

/-- The time and days of a schedule name the hour, minute and weekday of an
instant; without days every day counts. -/
def ScheduledAt (sched : Schedule) (t : Int) : Prop :=
  sched.time.toList = twoDigits (hour t).toNat ++ ':' :: twoDigits (minute t).toNat ∧
    (sched.days = none ∨ sched.days = some [] ∨ ∃ days ∈ sched.days, wday t ∈ days)

instance (sched : Schedule) (t : Int) : Decidable (ScheduledAt sched t) :=
  inferInstanceAs (Decidable (_ ∧ _))

theorem clockFields_eq {sched : Schedule} {hourTens hourOnes minuteTens minuteOnes : Char}
    (shape : sched.time.toList = [hourTens, hourOnes, ':', minuteTens, minuteOnes])
    (first : isDigit hourTens = true) (second : isDigit hourOnes = true)
    (third : isDigit minuteTens = true) (fourth : isDigit minuteOnes = true) :
    clockFields sched = [toI [hourTens, hourOnes], toI [minuteTens, minuteOnes]] := by
  rw [clockFields, shape, split_clock first second third fourth]
  rfl

/-- For the clock texts that validation lets through, reading the numbers and
comparing the text come to the same. -/
theorem clockFields_match_iff (sched : Schedule) (t : Int) :
    ((clockFields sched)[0]? = some (hour t) ∧ (clockFields sched)[1]? = some (minute t)) ↔
      sched.time.toList = twoDigits (hour t).toNat ++ ':' :: twoDigits (minute t).toNat := by
  rcases (matchesClock_iff _).mp sched.matchesClock_time with
    ⟨hourTens, hourOnes, minuteTens, minuteOnes, shape, first, _, second, third, _, fourth⟩
  rw [clockFields_eq shape first second third fourth, shape]
  have hours := hour_bounds t
  have minutes := minute_bounds t
  have hourIff := toI_pair_eq_iff (n := (hour t).toNat) first second (by omega)
  have minuteIff := toI_pair_eq_iff (n := (minute t).toNat) third fourth (by omega)
  rw [Int.toNat_of_nonneg hours.1] at hourIff
  rw [Int.toNat_of_nonneg minutes.1] at minuteIff
  simp only [List.getElem?_cons_zero, List.getElem?_cons_succ, Option.some.injEq, hourIff,
    minuteIff, twoDigits]
  simp [and_assoc]

theorem timeMatches_iff (sched : Schedule) (t : Int) :
    timeMatches sched t = true ↔ ScheduledAt sched t := by
  unfold timeMatches ScheduledAt
  rw [← clockFields_match_iff]
  by_cases hours : (clockFields sched)[0]? = some (hour t)
  · by_cases minutes : (clockFields sched)[1]? = some (minute t)
    · cases days : sched.days with
      | none => simp [hours, minutes]
      | some listed => cases listed <;> simp [hours, minutes]
    · simp [minutes]
  · simp [hours]

/-! ## What a tick fires -/

/-- The schedules that the loop fires, given the event ids in use: those that
are due, up to the first one whose event cannot be written. -/
def firedOf (env : Environment) : List String → List Schedule → List Schedule
  | _, [] => []
  | used, sched :: rest =>
      if due sched env.now then
        if used.contains (env.stamp sched.idSlug).id then [sched]
        else sched :: firedOf env (used ++ [(env.stamp sched.idSlug).id]) rest
      else firedOf env used rest

/-- The schedules of a list that pass the guards. -/
def dueOf (now : Int) (schedules : List Schedule) : List Schedule :=
  schedules.filter fun sched => due sched now

theorem dueOf_cons_pos {now : Int} {sched : Schedule} (passed : due sched now = true)
    (rest : List Schedule) : dueOf now (sched :: rest) = sched :: dueOf now rest := by
  simp [dueOf, passed]

theorem dueOf_cons_neg {now : Int} {sched : Schedule} (refused : ¬ due sched now = true)
    (rest : List Schedule) : dueOf now (sched :: rest) = dueOf now rest := by
  simp [dueOf, refused]

/-- Drawn ids that are neither in use nor drawn twice. -/
def Unused (used ids : List String) : Prop :=
  (∀ id ∈ ids, id ∉ used) ∧ ids.Nodup

theorem unused_cons_iff {used ids : List String} {id : String} :
    Unused used (id :: ids) ↔ id ∉ used ∧ Unused (used ++ [id]) ids := by
  simp only [Unused, List.forall_mem_cons, List.nodup_cons, List.mem_append,
    List.mem_singleton, not_or]
  constructor
  · rintro ⟨⟨new, others⟩, absent, distinct⟩
    refine ⟨new, fun other otherMem => ⟨others other otherMem, ?_⟩, distinct⟩
    rintro rfl
    exact absent otherMem
  · rintro ⟨new, others, distinct⟩
    exact ⟨⟨new, fun other otherMem => (others other otherMem).1⟩,
      fun member => (others id member).2 rfl, distinct⟩

/-- The ids that a tick draws for the events of a list of schedules. -/
def drawnIds (env : Environment) (schedules : List Schedule) : List String :=
  schedules.map fun sched => (env.stamp sched.idSlug).id

theorem firedOf_initial (env : Environment) (used : List String) (schedules : List Schedule) :
    firedOf env used schedules <+: dueOf env.now schedules := by
  induction schedules generalizing used with
  | nil => exact List.prefix_refl _
  | cons sched rest ih =>
      unfold firedOf
      split_ifs with passed clash
      · rw [dueOf_cons_pos passed]
        exact (List.prefix_cons_inj sched).mpr List.nil_prefix
      · rw [dueOf_cons_pos passed]
        exact (List.prefix_cons_inj sched).mpr (ih _)
      · rw [dueOf_cons_neg passed]
        exact ih used

/-- All due schedules are fired precisely if no event but the last one can clash. -/
theorem firedOf_eq_dueOf_iff (env : Environment) (used : List String)
    (schedules : List Schedule) :
    firedOf env used schedules = dueOf env.now schedules ↔
      Unused used (drawnIds env (dueOf env.now schedules).dropLast) := by
  induction schedules generalizing used with
  | nil => simp [firedOf, dueOf, drawnIds, Unused]
  | cons sched rest ih =>
      by_cases passed : due sched env.now = true
      · rw [firedOf, if_pos passed, dueOf_cons_pos passed]
        cases later : dueOf env.now rest with
        | nil =>
            have none : ∀ other, firedOf env other rest = [] := by
              intro other
              have initial := firedOf_initial env other rest
              rw [later] at initial
              exact List.prefix_nil.mp initial
            simp [none, Unused, drawnIds]
        | cons next others =>
            rw [List.dropLast_cons_cons, drawnIds, List.map_cons, unused_cons_iff]
            by_cases clash : (env.stamp sched.idSlug).id ∈ used
            · rw [if_pos (List.contains_iff_mem.mpr clash)]
              simp [clash]
            · rw [if_neg fun found => clash (List.contains_iff_mem.mp found)]
              rw [List.cons.injEq, ← later, ih]
              simp [clash, drawnIds]
      · rw [firedOf, if_neg passed, dueOf_cons_neg passed]
        exact ih used

/-- Rows after the schedules of a list have fired. -/
def firedRows (now : Int) (fired rows : List Schedule) : List Schedule :=
  Rows.updateWhere (fun row => fired.any fun sched => sched.idSlug = row.idSlug)
    (fun row => row.withLastFiredAt now) rows

theorem firedRows_cons (now : Int) (sched : Schedule) (rest rows : List Schedule) :
    firedRows now rest
        (Rows.updateWhere (fun row => row.idSlug = sched.idSlug)
          (fun row => row.withLastFiredAt now) rows) =
      firedRows now (sched :: rest) rows := by
  simp only [firedRows, Rows.updateWhere, List.map_map]
  apply List.map_congr_left
  intro row _
  by_cases same : row.idSlug = sched.idSlug
  · simp only [Function.comp, same, decide_true, if_true, List.any_cons,
      Bool.true_or, Schedule.withLastFiredAt_idSlug]
    split <;> rfl
  · have different : ¬ sched.idSlug = row.idSlug := fun equal => same equal.symm
    simp [same, different]

/-- The ledger entries of fired schedules. -/
def entriesOf (now : Int) (fired : List Schedule) : List Firing :=
  fired.map fun sched => ⟨sched.rowId, now⟩

/-- The tables and the ledger after the schedules of a list have fired. -/
structure Fired (now : Int) (fired : List Schedule) (before after : World) : Prop where
  firings : after.firings = before.firings ++ entriesOf now fired
  schedules : after.db.schedules = firedRows now fired before.db.schedules
  groups : after.db.groups = before.db.groups
  assignments : after.db.assignments = before.db.assignments
  groupSequence : after.db.groupSequence = before.db.groupSequence
  scheduleSequence : after.db.scheduleSequence = before.db.scheduleSequence

theorem Fired.nil (now : Int) (world : World) : Fired now [] world world where
  firings := by simp [entriesOf]
  schedules := by simp [firedRows, Rows.updateWhere]
  groups := rfl
  assignments := rfl
  groupSequence := rfl
  scheduleSequence := rfl

theorem Fired.cons {env : Environment} {sched : Schedule} {rest : List Schedule}
    {before after : World} {events : List Event}
    (later : Fired env.now rest ((firedWorld env sched before).setEvents events) after) :
    Fired env.now (sched :: rest) before after where
  firings := by
    rw [later.firings]
    simp [firedWorld, World.markFired, World.recordCalls, World.setEvents, entriesOf]
  schedules := by
    rw [later.schedules, ← firedRows_cons]
    rfl
  groups := later.groups
  assignments := later.assignments
  groupSequence := later.groupSequence
  scheduleSequence := later.scheduleSequence

/-- The ids of the events in the log. -/
def eventIds (db : Database) : List String :=
  db.events.map Event.id

theorem freshStamp_iff {env : Environment} {db : Database} {sched : Schedule} :
    FreshStamp env db sched ↔ (env.stamp sched.idSlug).id ∉ eventIds db := by
  simp [FreshStamp, eventIds]

/-- The loop over a snapshot fires the schedules of `firedOf`, whether it
returns or raises. -/
theorem performEach_fired (env : Environment) (schedules : List Schedule) (world : World) :
    Fired env.now (firedOf env (eventIds world.db) schedules) world
      (performEach env schedules world).2 := by
  induction schedules generalizing world with
  | nil => exact Fired.nil _ _
  | cons sched rest ih =>
      rw [performEach_cons]
      by_cases passed : due sched env.now = true
      · rw [if_pos passed, firedOf, if_pos passed]
        by_cases fresh : FreshStamp env world.db sched
        · rcases fire_of_fresh fresh with ⟨event, eventId, _, fired⟩
          have later := ih ((firedWorld env sched world).setEvents (world.db.events ++ [event]))
          have ids : eventIds
              ((firedWorld env sched world).setEvents (world.db.events ++ [event])).db =
                eventIds world.db ++ [(env.stamp sched.idSlug).id] := by
            simp [eventIds, World.setEvents, eventId]
          rw [ids] at later
          rw [fired, if_neg fun clash => freshStamp_iff.mp fresh (List.contains_iff_mem.mp clash)]
          exact later.cons
        · rcases fire_of_used fresh with ⟨raised, fired⟩
          have clash := not_not.mp (mt freshStamp_iff.mpr fresh)
          rw [fired, if_pos (List.contains_iff_mem.mpr clash)]
          exact (Fired.nil _ _).cons
      · rw [if_neg passed, firedOf, if_neg passed]
        exact ih world

/-! ## Runs of ticks and edits -/

structure State where
  world : World
  clock : Int

inductive Action where
  | tick (env : Environment)
  | edit (edit : Edit)

/-- Ticks happen at instants that do not go back. -/
def next : Step State Action
  | state, .tick env =>
      if state.clock ≤ env.now then some ⟨(perform env state.world).2, env.now⟩ else none
  | state, .edit edit =>
      some { state with world := { state.world with db := state.world.db.apply edit } }

/-- An empty database and empty ledgers. -/
def initial (clock : Int) : State := ⟨⟨Database.empty, [], []⟩, clock⟩

/-- The entries that one tick adds to the ledger. -/
def firedBy (state : State) (env : Environment) : List Firing :=
  (perform env state.world).2.firings.drop state.world.firings.length

/-- The tick fires a schedule exactly if it is enabled, meant to fire now, and
was not fired earlier in the same calendar minute. -/
def ExactFiring : State → Action → Prop
  | state, .tick env => ∀ sched ∈ state.world.db.schedules,
      ⟨sched.rowId, env.now⟩ ∈ firedBy state env ↔
        sched.enabled = some true ∧ ScheduledAt sched env.now ∧
          ∀ firing ∈ state.world.firings, firing.rowId = sched.rowId →
            ¬ SameMinute firing.instant env.now
  | _, .edit _ => True

instance (state : State) (action : Action) : Decidable (ExactFiring state action) :=
  match action with
  | .tick env => inferInstanceAs (Decidable (∀ sched ∈ state.world.db.schedules,
      ⟨sched.rowId, env.now⟩ ∈ firedBy state env ↔
        sched.enabled = some true ∧ ScheduledAt sched env.now ∧
          ∀ firing ∈ state.world.firings, firing.rowId = sched.rowId →
            ¬ SameMinute firing.instant env.now))
  | .edit _ => isTrue trivial

/-- No enabled schedule that is meant to fire now was last fired at the same
minute, hour and day of another month or year. -/
def NoMonthAlias : State → Action → Prop
  | state, .tick env => ∀ sched ∈ state.world.db.schedules, sched.enabled = some true →
      ScheduledAt sched env.now → ∀ last, sched.lastFiredAt = some last →
        minute last = minute env.now → hour last = hour env.now → day last = day env.now →
          SameMinute last env.now
  | _, .edit _ => True

/-- No due schedule but the last one of the tick draws an event id that is in
use or was drawn for an earlier one. -/
def Uninterrupted : State → Action → Prop
  | state, .tick env => Unused (eventIds state.world.db)
      (drawnIds env (dueOf env.now (snapshot state.world.db)).dropLast)
  | _, .edit _ => True

/-- Stored firing times and the ledger of firings determine each other. -/
structure Ledger (state : State) : Prop where
  wf : state.world.db.WellFormed
  past : ∀ firing ∈ state.world.firings,
    firing.instant ≤ state.clock ∧ firing.rowId < state.world.db.scheduleSequence
  latest : ∀ sched ∈ state.world.db.schedules, ∀ firing ∈ state.world.firings,
    firing.rowId = sched.rowId → ∃ last, sched.lastFiredAt = some last ∧ firing.instant ≤ last
  recorded : ∀ sched ∈ state.world.db.schedules, ∀ last, sched.lastFiredAt = some last →
    ⟨sched.rowId, last⟩ ∈ state.world.firings

theorem ledger_initial (clock : Int) : Ledger (initial clock) where
  wf := Database.wellFormed_empty
  past _ member := absurd member List.not_mem_nil
  latest _ member := absurd member List.not_mem_nil
  recorded _ member := absurd member List.not_mem_nil

theorem Ledger.edit {state : State} (ledger : Ledger state) (edit : Edit) :
    Ledger { state with world := { state.world with db := state.world.db.apply edit } } where
  wf := ledger.wf.apply edit
  past firing member :=
    ⟨(ledger.past firing member).1, Nat.lt_of_lt_of_le (ledger.past firing member).2
      (Database.scheduleSequence_le_apply _ edit)⟩
  latest := by
    intro sched member firing firingMem same
    rcases Database.mem_apply_schedules member with ⟨source, sourceMem, key, last⟩ | ⟨key, _⟩
    · rw [last]
      exact ledger.latest source sourceMem firing firingMem (same.trans key)
    · have below := (ledger.past firing firingMem).2
      rw [same, key] at below
      exact absurd below (Nat.lt_irrefl _)
  recorded := by
    intro sched member last stored
    rcases Database.mem_apply_schedules member with ⟨source, sourceMem, key, sameLast⟩ | ⟨_, none⟩
    · rw [key]
      exact ledger.recorded source sourceMem last (sameLast.symm.trans stored)
    · rw [none] at stored
      contradiction

/-! ## One tick -/

/-- The schedules that a tick fires. -/
def firedIn (state : State) (env : Environment) : List Schedule :=
  firedOf env (eventIds state.world.db) (snapshot state.world.db)

theorem perform_fired (state : State) (env : Environment) :
    Fired env.now (firedIn state env) state.world (perform env state.world).2 := by
  rw [perform_apply]
  exact performEach_fired env (snapshot state.world.db) state.world

theorem firedBy_eq (state : State) (env : Environment) :
    firedBy state env = entriesOf env.now (firedIn state env) := by
  rw [firedBy, (perform_fired state env).firings, List.drop_left]

/-- A fired schedule is stored, enabled and due. -/
theorem of_mem_firedIn {state : State} {env : Environment} {sched : Schedule}
    (fired : sched ∈ firedIn state env) :
    sched ∈ state.world.db.schedules ∧ sched.enabled = some true ∧ due sched env.now = true := by
  rcases List.mem_filter.mp ((firedOf_initial _ _ _).subset fired) with ⟨listed, passed⟩
  rcases List.mem_filter.mp listed with ⟨stored, enabled⟩
  exact ⟨stored, by simpa using enabled, passed⟩

section Keys

variable {state : State} {env : Environment} {sched : Schedule}

/-- A stored schedule is updated precisely if it is fired. -/
theorem selected_iff (wf : state.world.db.WellFormed) (stored : sched ∈ state.world.db.schedules) :
    ((firedIn state env).any fun other => other.idSlug = sched.idSlug) = true ↔
      sched ∈ firedIn state env := by
  have slugs : state.world.db.schedules.Pairwise fun first second =>
      first.idSlug ≠ second.idSlug := wf.schedules.imp fun distinct => distinct.2
  constructor
  · intro selected
    rcases List.any_eq_true.mp selected with ⟨other, otherFired, sameSlug⟩
    have same := Rows.eq_of_key_eq slugs (of_mem_firedIn otherFired).1 stored
      (by simpa using sameSlug)
    rw [← same]
    exact otherFired
  · intro fired
    exact List.any_eq_true.mpr ⟨sched, fired, by simp⟩

/-- A stored schedule has an entry precisely if it is fired. -/
theorem mem_entriesOf_iff (wf : state.world.db.WellFormed)
    (stored : sched ∈ state.world.db.schedules) :
    ⟨sched.rowId, env.now⟩ ∈ entriesOf env.now (firedIn state env) ↔
      sched ∈ firedIn state env := by
  have keys : state.world.db.schedules.Pairwise fun first second => first.rowId ≠ second.rowId :=
    wf.schedules.imp fun distinct => distinct.1
  constructor
  · intro entry
    rcases List.mem_map.mp entry with ⟨other, otherFired, equal⟩
    have same := Rows.eq_of_key_eq keys (of_mem_firedIn otherFired).1 stored
      (congrArg Firing.rowId equal)
    rw [← same]
    exact otherFired
  · intro fired
    exact List.mem_map.mpr ⟨sched, fired, rfl⟩

/-- What a row of the table becomes in a tick. -/
theorem mem_firedRows (wf : state.world.db.WellFormed) {row : Schedule}
    (member : row ∈ firedRows env.now (firedIn state env) state.world.db.schedules) :
    ∃ source ∈ state.world.db.schedules, row.rowId = source.rowId ∧
      (source ∈ firedIn state env ∧ row.lastFiredAt = some env.now ∨
        source ∉ firedIn state env ∧ row.lastFiredAt = source.lastFiredAt) := by
  rcases Rows.mem_updateWhere.mp member with ⟨source, stored, rfl⟩
  refine ⟨source, stored, ?_⟩
  by_cases fired : source ∈ firedIn state env
  · rw [if_pos ((selected_iff wf stored).mpr fired)]
    exact ⟨rfl, Or.inl ⟨fired, rfl⟩⟩
  · rw [if_neg fun chosen => fired ((selected_iff wf stored).mp chosen)]
    exact ⟨rfl, Or.inr ⟨fired, rfl⟩⟩

/-- Every due schedule is fired precisely if the tick is not interrupted. -/
theorem forall_due_fired_iff (wf : state.world.db.WellFormed) :
    (∀ sched ∈ state.world.db.schedules, sched.enabled = some true → due sched env.now = true →
      sched ∈ firedIn state env) ↔ Uninterrupted state (.tick env) := by
  have mem_due : ∀ sched, sched ∈ dueOf env.now (snapshot state.world.db) ↔
      sched ∈ state.world.db.schedules ∧ sched.enabled = some true ∧ due sched env.now = true := by
    intro sched
    simp only [dueOf, snapshot, List.mem_filter, decide_eq_true_eq, and_assoc]
  rw [Uninterrupted, ← firedOf_eq_dueOf_iff]
  constructor
  · intro complete
    rcases firedOf_initial env (eventIds state.world.db) (snapshot state.world.db) with
      ⟨missed, split⟩
    cases missed with
    | nil => rw [← split, List.append_nil]
    | cons first others =>
        -- A schedule after the fired ones is due, hence fired, hence listed twice.
        have distinct : (dueOf env.now (snapshot state.world.db)).Nodup :=
          (wf.schedules.imp fun {first second} apart equal =>
            apart.1 (congrArg Schedule.rowId equal)).filter _ |>.filter _
        rw [← split] at distinct
        have firstDue : first ∈ dueOf env.now (snapshot state.world.db) := by
          rw [← split]
          simp
        rcases (mem_due first).mp firstDue with ⟨stored, enabled, passed⟩
        have fired := complete first stored enabled passed
        exact absurd List.mem_cons_self (List.disjoint_of_nodup_append distinct fired)
  · intro all sched stored enabled passed
    rw [firedIn, all]
    exact (mem_due sched).mpr ⟨stored, enabled, passed⟩

end Keys

theorem Ledger.tick {state : State} (ledger : Ledger state) {env : Environment}
    (forward : state.clock ≤ env.now) : Ledger ⟨(perform env state.world).2, env.now⟩ := by
  have effect := perform_fired state env
  have keys : ∀ row ∈ firedRows env.now (firedIn state env) state.world.db.schedules,
      ∃ source ∈ state.world.db.schedules, row.rowId = source.rowId := by
    intro row member
    rcases mem_firedRows ledger.wf member with ⟨source, stored, key, _⟩
    exact ⟨source, stored, key⟩
  have entries : ∀ firing ∈ entriesOf env.now (firedIn state env), firing.instant = env.now ∧
      ∃ sched ∈ firedIn state env, firing.rowId = sched.rowId := by
    intro firing member
    rcases List.mem_map.mp member with ⟨sched, fired, rfl⟩
    exact ⟨rfl, sched, fired, rfl⟩
  constructor
  · constructor
    · rw [effect.groups]
      exact ledger.wf.groups
    · rw [effect.groups, effect.groupSequence]
      exact ledger.wf.groupsBelow
    · rw [effect.groups, effect.assignments]
      exact ledger.wf.references
    · rw [effect.schedules]
      exact ledger.wf.schedules.updateWhere fun sched => ⟨rfl, rfl⟩
    · intro row member
      rw [effect.schedules] at member
      rcases keys row member with ⟨source, stored, key⟩
      rw [key, effect.scheduleSequence]
      exact ledger.wf.schedulesBelow source stored
  · intro firing member
    rw [effect.firings] at member
    rw [effect.scheduleSequence]
    rcases List.mem_append.mp member with old | new
    · exact ⟨(ledger.past firing old).1.trans forward, (ledger.past firing old).2⟩
    · rcases entries firing new with ⟨instant, sched, fired, key⟩
      rw [instant, key]
      exact ⟨le_refl _, ledger.wf.schedulesBelow sched (of_mem_firedIn fired).1⟩
  · intro row member firing firingMem same
    rw [effect.schedules] at member
    rw [effect.firings] at firingMem
    rcases mem_firedRows ledger.wf member with ⟨source, stored, key, fired | kept⟩
    · refine ⟨env.now, fired.2, ?_⟩
      rcases List.mem_append.mp firingMem with old | new
      · exact (ledger.past firing old).1.trans forward
      · exact (entries firing new).1.le
    · rcases List.mem_append.mp firingMem with old | new
      · rw [kept.2]
        exact ledger.latest source stored firing old (same.trans key)
      · -- A new entry of this row would mean that the row was fired.
        have entry : firing = ⟨source.rowId, env.now⟩ := by
          rw [← same.trans key, ← (entries firing new).1]
        rw [entry] at new
        exact absurd ((mem_entriesOf_iff ledger.wf stored).mp new) kept.1
  · intro row member last lastEq
    rw [effect.schedules] at member
    rw [effect.firings]
    rcases mem_firedRows ledger.wf member with ⟨source, stored, key, fired | kept⟩
    · rw [fired.2] at lastEq
      cases lastEq
      rw [key]
      exact List.mem_append_right _ ((mem_entriesOf_iff ledger.wf stored).mpr fired.1)
    · rw [kept.2] at lastEq
      rw [key]
      exact List.mem_append_left _ (ledger.recorded source stored last lastEq)

theorem Ledger.next {state target : State} {action : Action} (ledger : Ledger state)
    (step : next state action = some target) : Ledger target := by
  cases action with
  | tick env =>
      simp only [Scheduler.next] at step
      split_ifs at step with forward
      cases step
      exact ledger.tick forward
  | edit edit =>
      cases step
      exact ledger.edit edit

/-- The stored time is in the current minute exactly if some firing is. -/
theorem Ledger.earlier_iff {state : State} (ledger : Ledger state) {now : Int}
    (forward : state.clock ≤ now) {sched : Schedule}
    (stored : sched ∈ state.world.db.schedules) :
    (∀ firing ∈ state.world.firings, firing.rowId = sched.rowId →
      ¬ SameMinute firing.instant now) ↔
      ∀ last, sched.lastFiredAt = some last → ¬ SameMinute last now := by
  constructor
  · intro none last lastEq
    exact none _ (ledger.recorded sched stored last lastEq) rfl
  · intro none firing member same sameMinute
    rcases ledger.latest sched stored firing member same with ⟨last, lastEq, later⟩
    have lastPast := (ledger.past _ (ledger.recorded sched stored last lastEq)).1
    exact none last lastEq (sameMinute.of_between later (lastPast.trans forward))

theorem alreadyFired_iff (sched : Schedule) (now : Int) :
    alreadyFiredThisMinute sched now = true ↔
      ∃ last, sched.lastFiredAt = some last ∧ minute last = minute now ∧
        hour last = hour now ∧ day last = day now := by
  unfold alreadyFiredThisMinute
  cases sched.lastFiredAt with
  | none => simp
  | some last => simp [and_assoc]

theorem due_iff (sched : Schedule) (now : Int) :
    due sched now = true ↔
      ScheduledAt sched now ∧ alreadyFiredThisMinute sched now = false := by
  rw [due, Bool.and_eq_true, timeMatches_iff, Bool.not_eq_true']

/-- A stored schedule that has to fire is due, unless its stored time is
mistaken for the current minute. -/
theorem Ledger.wanted_iff {state : State} (ledger : Ledger state) {now : Int}
    (forward : state.clock ≤ now) {sched : Schedule}
    (stored : sched ∈ state.world.db.schedules)
    (noAlias : ScheduledAt sched now → ∀ last, sched.lastFiredAt = some last →
      minute last = minute now → hour last = hour now → day last = day now →
        SameMinute last now) :
    due sched now = true ↔ ScheduledAt sched now ∧
      ∀ firing ∈ state.world.firings, firing.rowId = sched.rowId →
        ¬ SameMinute firing.instant now := by
  rw [due_iff, ledger.earlier_iff forward stored]
  apply and_congr_right
  intro scheduled
  rw [← Bool.not_eq_true, alreadyFired_iff]
  constructor
  · intro notGuarded last lastEq same
    exact notGuarded ⟨last, lastEq, same.2.2.2.2, same.2.2.2.1, same.2.2.1⟩
  · rintro none ⟨last, lastEq, minutes, hours, days⟩
    exact none last lastEq (noAlias scheduled last lastEq minutes hours days)

/-- One tick fires exactly the right schedules precisely if no stored firing
time is mistaken for the current minute and the tick is not interrupted. -/
theorem exactFiring_step {state target : State} {action : Action} (ledger : Ledger state)
    (step : next state action = some target) :
    ExactFiring state action ↔ NoMonthAlias state action ∧ Uninterrupted state action := by
  cases action with
  | edit edit => simp [ExactFiring, NoMonthAlias, Uninterrupted]
  | tick env =>
      simp only [next] at step
      split_ifs at step with forward
      have fired : ∀ sched ∈ state.world.db.schedules,
          (⟨sched.rowId, env.now⟩ ∈ firedBy state env ↔ sched ∈ firedIn state env) := by
        intro sched stored
        rw [firedBy_eq, mem_entriesOf_iff ledger.wf stored]
      constructor
      · intro exactly
        have noAlias : NoMonthAlias state (.tick env) := by
          intro sched stored enabled scheduled last lastEq minutes hours days
          by_contra different
          have guarded : alreadyFiredThisMinute sched env.now = true :=
            (alreadyFired_iff sched env.now).mpr ⟨last, lastEq, minutes, hours, days⟩
          have none : ∀ other, sched.lastFiredAt = some other → ¬ SameMinute other env.now := by
            intro other otherEq
            rw [lastEq] at otherEq
            cases otherEq
            exact different
          have wanted := (exactly sched stored).mpr
            ⟨enabled, scheduled, (ledger.earlier_iff forward stored).mpr none⟩
          have passed := (of_mem_firedIn ((fired sched stored).mp wanted)).2.2
          rw [due_iff, guarded] at passed
          cases passed.2
        refine ⟨noAlias, (forall_due_fired_iff ledger.wf).mp ?_⟩
        intro sched stored enabled passed
        have wanted := (ledger.wanted_iff forward stored (noAlias sched stored enabled)).mp passed
        exact (fired sched stored).mp ((exactly sched stored).mpr ⟨enabled, wanted⟩)
      · rintro ⟨noAlias, complete⟩ sched stored
        rw [fired sched stored]
        constructor
        · intro isFired
          rcases of_mem_firedIn isFired with ⟨_, enabled, passed⟩
          exact ⟨enabled,
            (ledger.wanted_iff forward stored (noAlias sched stored enabled)).mp passed⟩
        · rintro ⟨enabled, wanted⟩
          exact (forall_due_fired_iff ledger.wf).mpr complete sched stored enabled
            ((ledger.wanted_iff forward stored (noAlias sched stored enabled)).mpr wanted)

/-- Along every run of ticks and edits, the ticks fire exactly the right
schedules if and only if no tick meets a due schedule last fired at the same
minute, hour and day of another month or year, and none is cut short by an
event id that is already in use. -/
theorem exactFiring_iff (clock : Int) (actions : List Action) :
    Throughout next ExactFiring (initial clock) actions ↔
      Throughout next (fun state action => NoMonthAlias state action ∧ Uninterrupted state action)
        (initial clock) actions := by
  apply throughout_iff (J := Ledger)
  · intro state action target ledger step
    exact ledger.next step
  · intro state action target ledger step
    exact exactFiring_step ledger step
  · exact ledger_initial clock

/-! ## A firing in another month -/

/-- Stop a VM every day at nine. -/
def dailyStop : Edit :=
  .createSchedule "daily"
    { name := some "Daily stop", enabled := some "1", action := some "stop",
      time := some "09:00", groupName := none, playbook := none, days := none,
      vmNames := some ["web-1"] }

/-- A tick whose CLI calls succeed. -/
def quietTick (now : Int) (suffix : String) : Action :=
  .tick { now := now, cli := fun _ _ => none, stamp := fun _ => ⟨now / 1000000, suffix⟩ }

/-- Ticks on the fifteenth of two months, and none in between. -/
def twoMonths : List Action :=
  [.edit dailyStop, quietTick (instantOf ⟨2024, 1, 15⟩ 9 0 5) "00a1"]

def secondMonth : Action := quietTick (instantOf ⟨2024, 2, 15⟩ 9 0 5) "00a2"

/-- The firing in January suppresses the one in February. -/
theorem twoMonths_not_exactFiring :
    ¬ Throughout next ExactFiring (initial 0) (twoMonths ++ [secondMonth]) := by
  intro exactly
  have suppressed : (run next (initial 0) twoMonths).any fun middle =>
      (next middle secondMonth).isSome && !decide (ExactFiring middle secondMonth) := by
    decide
  rcases (Option.any_eq_true _ _).mp suppressed with ⟨middle, executed, inexact⟩
  rw [Bool.and_eq_true, Option.isSome_iff_exists] at inexact
  rcases inexact with ⟨⟨target, step⟩, inexact⟩
  simp [exactly.at_step executed step] at inexact

end MultipassWebui.Scheduler
