import MultipassWebui.Text.Strings
import MultipassWebui.Encoding.Json

/-!
# Rows and their validations

The rows of `groups`, `vm_assignments`, `schedules` and `events`.  A row can
only be built from attributes that pass the validations of its model; the
uniqueness validations speak about the whole table and live with the tables.
Columns that no modelled operation reads are left out.
-/

namespace MultipassWebui.Records

open MultipassWebui.Encoding
open MultipassWebui.Text

/-- An entry of `errors`: the field and the message. -/
structure FieldError where
  field : String
  message : String
  deriving DecidableEq, Repr

/-- One validation: the error it adds unless the check passes. -/
def validate (field message : String) (check : Bool) : List FieldError :=
  if check then [] else [⟨field, message⟩]

@[simp]
theorem validate_eq_nil_iff (field message : String) (check : Bool) :
    validate field message check = [] ↔ check = true := by
  cases check <;> simp [validate]

/-! ## Groups and assignments -/

/-- `/\A[a-zA-Z0-9][a-zA-Z0-9 _-]{0,62}\z/` -/
def matchesGroupName (name : String) : Bool :=
  matchesLeading isAlnum (fun char => isAlnum char || char = ' ' || char = '_' || char = '-') 62
    name

/-- The validations of `Group` that concern one row. -/
def groupErrors (name : String) : List FieldError :=
  validate "name" "can't be blank" (!blank name) ++
    validate "name" "must start with letter/digit" (matchesGroupName name)

structure Group where
  id : Nat
  name : String
  position : Int
  valid : groupErrors name = []
  deriving DecidableEq

/-- The validations of `VmAssignment` that concern one row. -/
def assignmentErrors (vmName : String) : List FieldError :=
  validate "vm_name" "can't be blank" (!blank vmName)

structure VmAssignment where
  id : Nat
  vmName : String
  groupId : Option Nat
  isTemplate : Bool
  valid : assignmentErrors vmName = []
  deriving DecidableEq

/-! ## Schedules -/

def ACTIONS : List String := ["start", "stop", "playbook"]

/-- `/\A[a-zA-Z0-9][a-zA-Z0-9_-]{0,62}\z/` -/
def matchesIdSlug (slug : String) : Bool :=
  matchesLeading isAlnum (fun char => isAlnum char || char = '_' || char = '-') 62 slug

/-- The columns of a schedule that can be assigned.  An absent text column is
the empty text, which the validations do not tell apart. -/
structure ScheduleAttributes where
  idSlug : String
  name : String
  action : String
  time : String
  days : Option (List Int)
  groupName : Option String
  vmNames : Option (List String)
  playbook : Option String
  enabled : Option Bool
  lastFiredAt : Option Int
  deriving DecidableEq, Repr

namespace ScheduleAttributes

/-- `has_targets?` -/
def hasTargets (attributes : ScheduleAttributes) : List FieldError :=
  validate "base" "must have a target group or list of VMs"
    (present attributes.groupName || attributes.vmNames.any fun names => !names.isEmpty)

/-- The validations of `Schedule` that concern one row. -/
def errors (attributes : ScheduleAttributes) : List FieldError :=
  validate "id_slug" "can't be blank" (!blank attributes.idSlug) ++
    validate "id_slug" "is invalid" (matchesIdSlug attributes.idSlug) ++
    validate "name" "can't be blank" (!blank attributes.name) ++
    validate "action" "is not included in the list" (ACTIONS.contains attributes.action) ++
    validate "time" "must be HH:MM" (matchesClock attributes.time) ++
    attributes.hasTargets

end ScheduleAttributes

/-- A stored schedule.  `rowId` is the table's own integer key; the model is
addressed by `idSlug`. -/
structure Schedule extends ScheduleAttributes where
  rowId : Nat
  valid : toScheduleAttributes.errors = []
  deriving DecidableEq

namespace Schedule

theorem matchesClock_time (sched : Schedule) : matchesClock sched.time = true := by
  have valid := sched.valid
  simp only [ScheduleAttributes.errors, List.append_eq_nil_iff, validate_eq_nil_iff] at valid
  exact valid.1.2

/-- The firing time is not validated, so it can be written to any row. -/
def withLastFiredAt (sched : Schedule) (now : Int) : Schedule :=
  { sched with lastFiredAt := some now, valid := sched.valid }

@[simp]
theorem withLastFiredAt_idSlug (sched : Schedule) (now : Int) :
    (sched.withLastFiredAt now).idSlug = sched.idSlug :=
  rfl

@[simp]
theorem withLastFiredAt_rowId (sched : Schedule) (now : Int) :
    (sched.withLastFiredAt now).rowId = sched.rowId :=
  rfl

@[simp]
theorem withLastFiredAt_lastFiredAt (sched : Schedule) (now : Int) :
    (sched.withLastFiredAt now).lastFiredAt = some now :=
  rfl

end Schedule

/-! ## Events -/

def CATEGORIES : List String :=
  ["vm", "schedule", "ansible", "llm", "config", "webhook", "proxy"]

def ACTORS : List String := ["user", "scheduler", "llm_agent", "system"]

def RESULTS : List String := ["success", "failed", "partial", "no_targets"]

/-- The arguments of `Event.emit!`. -/
structure EventAttributes where
  category : String
  action : String
  actor : String
  resource : Option String
  result : Option String
  detail : Option String
  endpoint : Option String
  payload : Option Json

namespace EventAttributes

/-- The validations of `Event`. -/
def errors (attributes : EventAttributes) : List FieldError :=
  validate "category" "is not included in the list" (CATEGORIES.contains attributes.category) ++
    validate "actor" "is not included in the list" (ACTORS.contains attributes.actor) ++
    validate "result" "is not included in the list"
      (attributes.result.all fun result => RESULTS.contains result)

end EventAttributes

structure Event extends EventAttributes where
  id : String
  valid : toEventAttributes.errors = []

/-- What `assign_id` draws: the clock in seconds and four hex digits. -/
structure EventStamp where
  seconds : Int
  suffix : String
  deriving DecidableEq, Repr

/-- The id format `<unix_seconds>-<4_hex_bytes>`. -/
def EventStamp.id (stamp : EventStamp) : String :=
  toString stamp.seconds ++ "-" ++ stamp.suffix

end MultipassWebui.Records
