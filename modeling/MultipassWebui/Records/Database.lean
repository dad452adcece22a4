import MultipassWebui.Records.Rows
import MultipassWebui.Records.Schema

/-!
# The database and its edits

The tables that scheduling reads, the edits that the models and the schedule
form can make to them, and the table-wide facts that every edit keeps: keys are
unique and an assignment refers to an existing group.  An edit that fails a
validation or a constraint changes nothing.
-/

namespace MultipassWebui.Records

open MultipassWebui.Text
open Rows

/-- The modelled tables.  The sequences are the next automatic integer keys,
which SQLite never hands out twice. -/
structure Database where
  groups : List Group
  assignments : List VmAssignment
  schedules : List Schedule
  events : List Event
  groupSequence : Nat
  assignmentSequence : Nat
  scheduleSequence : Nat

namespace Database

def empty : Database := ⟨[], [], [], [], 0, 0, 0⟩

/-- `Group.find_by(name:)` -/
def findGroupByName (db : Database) (name : String) : Option Group :=
  db.groups.find? fun group => group.name = name

/-- `VmAssignment#group` -/
def groupOf (db : Database) (assignment : VmAssignment) : Option Group :=
  assignment.groupId.bind fun id => db.groups.find? fun group => group.id = id

/-! ## Groups -/

def createGroup (db : Database) (name : String) (position : Int) : Database :=
  if valid : groupErrors name = [] then
    if db.groups.any fun group => group.name = name then db
    else
      { db with
        groups := db.groups ++ [⟨db.groupSequence, name, position, valid⟩]
        groupSequence := db.groupSequence + 1 }
  else db

/-- `update(name:)` of the group with the given key. -/
def renameGroup (db : Database) (id : Nat) (name : String) : Database :=
  if valid : groupErrors name = [] then
    if db.groups.any fun group => group.id ≠ id && group.name = name then db
    else
      { db with
        groups := updateWhere (fun group => group.id = id)
          (fun group => { group with name := name, valid := valid }) db.groups }
  else db

/-- `dependent: :nullify` -/
def nullify (id : Nat) (assignments : List VmAssignment) : List VmAssignment :=
  updateWhere (fun assignment => assignment.groupId = some id)
    (fun assignment => { assignment with groupId := none }) assignments

/-- `destroy`: the members' group is cleared, then the row goes. -/
def destroyGroup (db : Database) (id : Nat) : Database :=
  { db with
    assignments := nullify id db.assignments
    groups := db.groups.filter fun group => group.id ≠ id }

/-! ## Assignments -/

/-- The foreign key from `vm_assignments` to `groups`. -/
def referenceExists (db : Database) (groupId : Option Nat) : Bool :=
  groupId.all fun id => db.groups.any fun group => group.id = id

def createAssignment (db : Database) (vmName : String) (groupId : Option Nat)
    (isTemplate : Bool) : Database :=
  if valid : assignmentErrors vmName = [] then
    if (db.assignments.any fun assignment => assignment.vmName = vmName) ||
        !db.referenceExists groupId then db
    else
      { db with
        assignments := db.assignments ++
          [⟨db.assignmentSequence, vmName, groupId, isTemplate, valid⟩]
        assignmentSequence := db.assignmentSequence + 1 }
  else db

def updateAssignment (db : Database) (id : Nat) (vmName : String) (groupId : Option Nat)
    (isTemplate : Bool) : Database :=
  if valid : assignmentErrors vmName = [] then
    if (db.assignments.any fun assignment =>
        assignment.id ≠ id && assignment.vmName = vmName) || !db.referenceExists groupId then db
    else
      { db with
        assignments := updateWhere (fun assignment => assignment.id = id)
          (fun _ => ⟨id, vmName, groupId, isTemplate, valid⟩) db.assignments }
  else db

def destroyAssignment (db : Database) (id : Nat) : Database :=
  { db with assignments := db.assignments.filter fun assignment => assignment.id ≠ id }

end Database

/-! ## The schedule form -/

/-- The submitted `schedule` parameters; an absent key leaves its column alone. -/
structure ScheduleForm where
  name : Option String
  enabled : Option String
  action : Option String
  time : Option String
  groupName : Option String
  playbook : Option String
  days : Option (List String)
  vmNames : Option (List String)
  deriving DecidableEq, Repr

/-- The cast of a submitted text to a boolean column. -/
def castBoolean (text : String) : Option Bool :=
  if text = "" then none
  else some (!(["0", "f", "F", "false", "FALSE", "off", "OFF"].contains text))

namespace ScheduleForm

/-- `schedule_params`: days become integers and blank VM names are dropped. -/
def scheduleParams (form : ScheduleForm) : ScheduleForm × Option (List Int) :=
  ({ form with vmNames := form.vmNames.map fun names => names.filter fun name => !blank name },
    form.days.map fun days => days.map fun day => toI day.toList)

/-- Assign the permitted parameters to a row's attributes. -/
def assign (form : ScheduleForm) (old : ScheduleAttributes) : ScheduleAttributes :=
  let (permitted, days) := form.scheduleParams
  { old with
    name := permitted.name.getD old.name
    enabled := (permitted.enabled.map castBoolean).getD old.enabled
    action := permitted.action.getD old.action
    time := permitted.time.getD old.time
    groupName := permitted.groupName.or old.groupName
    playbook := permitted.playbook.or old.playbook
    days := days.or old.days
    vmNames := permitted.vmNames.or old.vmNames }

/-- The form has no field for the time of the last firing. -/
@[simp]
theorem assign_lastFiredAt (form : ScheduleForm) (old : ScheduleAttributes) :
    (form.assign old).lastFiredAt = old.lastFiredAt :=
  rfl

@[simp]
theorem assign_idSlug (form : ScheduleForm) (old : ScheduleAttributes) :
    (form.assign old).idSlug = old.idSlug :=
  rfl

end ScheduleForm

/-- A schedule before any assignment, with the column defaults. -/
def ScheduleAttributes.default (slug : String) : ScheduleAttributes :=
  { idSlug := slug, name := "", action := "", time := "", days := none, groupName := none,
    vmNames := none, playbook := none, enabled := some true, lastFiredAt := none }

/-- `Schedule.new(schedule_params.merge(id_slug:))` -/
def ScheduleForm.build (form : ScheduleForm) (slug : String) : ScheduleAttributes :=
  form.assign (ScheduleAttributes.default slug)

namespace Database

/-- `SchedulesController#create`, with the drawn `id_slug`. -/
def createSchedule (db : Database) (slug : String) (form : ScheduleForm) : Database :=
  if valid : (form.build slug).errors = [] then
    if db.schedules.any fun sched => sched.idSlug = slug then db
    else
      { db with
        schedules := db.schedules ++ [⟨form.build slug, db.scheduleSequence, valid⟩]
        scheduleSequence := db.scheduleSequence + 1 }
  else db

/-- Assign the form to a row; an invalid result leaves the row as it was. -/
def reviseSchedule (form : ScheduleForm) (sched : Schedule) : Schedule :=
  if valid : (form.assign sched.toScheduleAttributes).errors = [] then
    ⟨form.assign sched.toScheduleAttributes, sched.rowId, valid⟩
  else sched

/-- `SchedulesController#update` -/
def updateSchedule (db : Database) (slug : String) (form : ScheduleForm) : Database :=
  { db with
    schedules := updateWhere (fun sched => sched.idSlug = slug) (reviseSchedule form)
      db.schedules }

/-- `SchedulesController#destroy` -/
def destroySchedule (db : Database) (slug : String) : Database :=
  { db with schedules := db.schedules.filter fun sched => sched.idSlug ≠ slug }

end Database

/-- One edit of the database by a request or a console. -/
inductive Edit where
  | createGroup (name : String) (position : Int)
  | renameGroup (id : Nat) (name : String)
  | destroyGroup (id : Nat)
  | createAssignment (vmName : String) (groupId : Option Nat) (isTemplate : Bool)
  | updateAssignment (id : Nat) (vmName : String) (groupId : Option Nat) (isTemplate : Bool)
  | destroyAssignment (id : Nat)
  | createSchedule (slug : String) (form : ScheduleForm)
  | updateSchedule (slug : String) (form : ScheduleForm)
  | destroySchedule (slug : String)
  deriving DecidableEq, Repr

/-- Carry out an edit. -/
def Database.apply (db : Database) : Edit → Database
  | .createGroup name position => db.createGroup name position
  | .renameGroup id name => db.renameGroup id name
  | .destroyGroup id => db.destroyGroup id
  | .createAssignment vmName groupId isTemplate => db.createAssignment vmName groupId isTemplate
  | .updateAssignment id vmName groupId isTemplate =>
      db.updateAssignment id vmName groupId isTemplate
  | .destroyAssignment id => db.destroyAssignment id
  | .createSchedule slug form => db.createSchedule slug form
  | .updateSchedule slug form => db.updateSchedule slug form
  | .destroySchedule slug => db.destroySchedule slug

end MultipassWebui.Records
