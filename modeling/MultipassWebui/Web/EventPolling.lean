import MultipassWebui.Calendar.Timestamps
import MultipassWebui.Collections.Newest
import MultipassWebui.Migration.Tables

/-!
# Polling the event log

`GET /events` loads the newest rows that match the filters.  The bound `since` is
compared as a text with the stored datetime, and the two texts are not written in
the same way, so the date decides and the time of day is not looked at.
-/

namespace MultipassWebui.Web.EventsController

open MultipassWebui.Calendar
open MultipassWebui.Collections
open MultipassWebui.Encoding
open MultipassWebui.Text

/-! ## The table -/

/-- A row of `events`; its datetimes have years of four digits. -/
structure Row extends Migration.Event where
  updatedAt : Int
  fourDigits : FourDigitYear createdAt

namespace Row

/-- `as_json` -/
def asJson (row : Row) : Json :=
  .object [("id", .string row.id), ("action", .string row.action), ("actor", .string row.actor),
    ("category", .string row.category), ("created_at", .string (printedText row.createdAt)),
    ("detail", .orNull row.detail), ("endpoint", .orNull row.endpoint), ("payload", row.payload),
    ("resource", .orNull row.resource), ("result", .orNull row.result),
    ("updated_at", .string (printedText row.updatedAt))]

end Row

/-! ## Queries -/

/-- `Event.order(created_at: :desc)` with conditions and a limit. -/
structure Relation where
  wheres : List (Row → Bool)
  limit : Nat

namespace Relation

/-- `where` with one more condition. -/
def filter (events : Relation) (condition : Row → Bool) : Relation :=
  { events with wheres := events.wheres ++ [condition] }

/-- The rows that satisfy all conditions. -/
def selected (events : Relation) (table : List Row) : List Row :=
  table.filter fun row => events.wheres.all fun condition => condition row

/-- What the database may answer: the limit applies to the selected rows, in the
descending order of the stored texts. -/
def Loads (events : Relation) (table rows : List Row) : Prop :=
  Newest (fun row => storedText row.createdAt) events.limit (events.selected table) rows

end Relation

/-- A parameter: a text or a list of texts. -/
inductive Parameter where
  | text (value : String)
  | list (values : List String)
  deriving DecidableEq, Repr

namespace Parameter

def present : Parameter → Bool
  | text value => !blank value
  | list values => !values.isEmpty

/-- `where(column: value)` -/
def accepts (column : Option String) : Parameter → Bool
  | text value => column = some value
  | list values => column.any fun text => values.contains text

end Parameter

structure Params where
  category : Option Parameter
  actor : Option Parameter
  resource : Option Parameter
  since : Option String

/-- `events.where(column: params[key]) if params[key].present?` -/
def Relation.whereColumn (events : Relation) (column : Row → Option String)
    (param : Option Parameter) : Relation :=
  match param with
  | some value =>
      if value.present then events.filter fun row => value.accepts (column row) else events
  | none => events

/-- `events.where("created_at >= ?", params[:since]) if params[:since].present?` -/
def Relation.whereSince (events : Relation) (since : Option String) : Relation :=
  match since with
  | some text =>
      if blank text then events
      else events.filter fun row => decide (text ≤ storedText row.createdAt)
  | none => events

/-- `index` -/
def index (params : Params) : Relation :=
  let events : Relation := ⟨[], 50⟩
  let events := events.whereColumn (fun row => some row.category) params.category
  let events := events.whereColumn (fun row => some row.actor) params.actor
  let events := events.whereColumn (fun row => row.resource) params.resource
  events.whereSince params.since

/-! ## What a poll should give -/

/-- A column passes its filter, if there is one. -/
def passes (column : Option String) : Option Parameter → Bool
  | some value => !value.present || value.accepts column
  | none => true

/-- The row passes the filters, `since` apart. -/
def Params.matches (params : Params) (row : Row) : Bool :=
  passes (some row.category) params.category && passes (some row.actor) params.actor &&
    passes row.resource params.resource

/-- The newest rows that pass the filters and are not earlier than what is printed
for the event. -/
def Polled (params : Params) (event : Row) (table rows : List Row) : Prop :=
  Newest (fun row => row.createdAt) 50
    (table.filter fun row =>
      params.matches row && decide (printedInstant event.createdAt ≤ row.createdAt)) rows

/-- The row is of a later date than the event. -/
def laterDate (event row : Row) : Bool :=
  decide (event.createdAt / usecPerDay < row.createdAt / usecPerDay)

/-! ## What is selected -/

section

variable {table : List Row}

theorem selected_filter (events : Relation) (condition : Row → Bool) :
    (events.filter condition).selected table = (events.selected table).filter condition := by
  rw [Relation.selected, Relation.selected, List.filter_filter]
  apply List.filter_congr
  intro row _
  rw [Relation.filter, List.all_append, Bool.and_comm]
  simp

theorem selected_whereColumn (events : Relation) (column : Row → Option String)
    (param : Option Parameter) :
    (events.whereColumn column param).selected table =
      (events.selected table).filter fun row => passes (column row) param := by
  cases param with
  | none => exact (List.filter_true _).symm
  | some value =>
      rw [Relation.whereColumn]
      cases given : value.present with
      | true =>
          rw [if_pos rfl, selected_filter]
          simp [passes, given]
      | false =>
          rw [if_neg Bool.false_ne_true]
          simp [passes, given]

/-- What is printed is not blank. -/
theorem not_blank_printedText (t : Int) : blank (printedText t) = false := by
  rw [blank, printedText, String.toList_ofList, List.all_append, List.all_cons]
  have letter : isSpace 'T' = false := by decide
  rw [letter, Bool.false_and, Bool.and_false]

/-- The filters select the rows of later dates. -/
theorem selected_index {params : Params} {event : Row}
    (asked : params.since = some (printedText event.createdAt)) :
    (index params).selected table =
      table.filter fun row => params.matches row && laterDate event row := by
  have bound : ∀ row : Row, decide (printedText event.createdAt ≤ storedText row.createdAt) =
      laterDate event row := by
    intro row
    rw [laterDate, decide_eq_decide]
    exact printedText_le_storedText_iff row.fourDigits event.fourDigits
  have all : (Relation.mk [] 50).selected table = table := List.filter_true table
  rw [index, asked, Relation.whereSince, not_blank_printedText, if_neg Bool.false_ne_true,
    selected_filter, selected_whereColumn, selected_whereColumn, selected_whereColumn, all,
    List.filter_filter, List.filter_filter, List.filter_filter]
  apply List.filter_congr
  intro row _
  rw [bound, Params.matches]
  ac_rfl

theorem limit_index (params : Params) : (index params).limit = 50 := by
  have column : ∀ (events : Relation) (column : Row → Option String) (param : Option Parameter),
      (events.whereColumn column param).limit = events.limit := by
    intro events column param
    cases param with
    | none => rfl
    | some value =>
        rw [Relation.whereColumn]
        split
        · rfl
        · rfl
  have since : ∀ (events : Relation) (since : Option String),
      (events.whereSince since).limit = events.limit := by
    intro events since
    cases since with
    | none => rfl
    | some text =>
        rw [Relation.whereSince]
        split
        · rfl
        · rfl
  rw [index, since, column, column, column]

/-! ## When a poll loses nothing -/

variable {params : Params} {event : Row} {rows : List Row}

/-- The newest rows by their texts are the newest ones. -/
theorem newest_of_loads (asked : params.since = some (printedText event.createdAt))
    (loads : (index params).Loads table rows) :
    Newest (fun row => row.createdAt) 50
      (table.filter fun row => params.matches row && laterDate event row) rows := by
  rw [Relation.Loads, limit_index, selected_index asked] at loads
  apply loads.of_key
  intro first _ second _ le
  exact (storedText_le_iff first.fourDigits second.fourDigits).mp le

/-- A row of a later date is not earlier than what is printed for the event. -/
theorem le_of_laterDate {row : Row} (later : laterDate event row = true) :
    printedInstant event.createdAt ≤ row.createdAt := by
  rw [laterDate, decide_eq_true_eq] at later
  simp only [printedInstant, usecPerDay] at *
  omega

/-- The other rows that a poll should give are of the date of the event. -/
theorem sameDate_iff {row : Row} (reached : printedInstant event.createdAt ≤ row.createdAt) :
    date row.createdAt = date event.createdAt ↔ laterDate event row = false := by
  have days : date row.createdAt = date event.createdAt ↔
      row.createdAt / usecPerDay = event.createdAt / usecPerDay :=
    ⟨fun same => dateOfDays_injective same, fun same => congrArg dateOfDays same⟩
  rw [days, laterDate, decide_eq_false_iff_not]
  simp only [printedInstant, usecPerDay] at *
  omega

/-- The rows that a poll should give and that the filters do not select. -/
def missed (params : Params) (event : Row) (table : List Row) : List Row :=
  (table.filter fun row =>
    params.matches row && decide (printedInstant event.createdAt ≤ row.createdAt)).filter
      fun row => !laterDate event row

theorem filter_laterDate :
    (table.filter fun row =>
      params.matches row && decide (printedInstant event.createdAt ≤ row.createdAt)).filter
        (laterDate event) =
      table.filter fun row => params.matches row && laterDate event row := by
  rw [List.filter_filter]
  apply List.filter_congr
  intro row _
  cases later : laterDate event row with
  | true => simp [le_of_laterDate later]
  | false => simp

theorem missed_eq_nil_iff : missed params event table = [] ↔
    ∀ row ∈ table, params.matches row = true → printedInstant event.createdAt ≤ row.createdAt →
      date row.createdAt ≠ date event.createdAt := by
  rw [missed, List.filter_filter, List.filter_eq_nil_iff]
  apply forall₂_congr
  intro row _
  rw [Bool.and_eq_true, Bool.and_eq_true, decide_eq_true_eq, Bool.not_eq_true_eq_eq_false]
  constructor
  · intro none passes reached same
    exact none ⟨(sameDate_iff reached).mp same, passes, reached⟩
  · rintro apart ⟨notLater, passes, reached⟩
    exact apart passes reached ((sameDate_iff reached).mpr notLater)

/-- What is selected is later than what is missed. -/
theorem missed_le {first second : Row} (later : laterDate event first = true)
    (isMissed : second ∈ missed params event table) : second.createdAt ≤ first.createdAt := by
  rw [missed, List.mem_filter, Bool.not_eq_true_eq_eq_false, laterDate, decide_eq_false_iff_not]
    at isMissed
  rw [laterDate, decide_eq_true_eq] at later
  have notLater := isMissed.2
  simp only [usecPerDay] at later notLater
  omega

/-- A poll loses nothing exactly if there is nothing more on the date of its bound, or
enough on later dates. -/
theorem polled_iff {since : String}
    (printed : event.asJson.field? "created_at" = some (.string since))
    (asked : params.since = some since) (loads : (index params).Loads table rows) :
    Polled params event table rows ↔
      (∀ row ∈ table, params.matches row = true →
          printedInstant event.createdAt ≤ row.createdAt →
          date row.createdAt ≠ date event.createdAt) ∨
        50 ≤ (table.filter fun row => params.matches row && laterDate event row).length := by
  have isPrinted : printedText event.createdAt = since := by
    injection printed with same
    injection same
  subst isPrinted
  have newest := newest_of_loads asked loads
  have parts := List.filter_append_perm (laterDate event) (table.filter fun row =>
    params.matches row && decide (printedInstant event.createdAt ≤ row.createdAt))
  rw [filter_laterDate] at parts
  have split : Polled params event table rows ↔ Newest (fun row => row.createdAt) 50
      ((table.filter fun row => params.matches row && laterDate event row) ++
        missed params event table) rows :=
    ⟨fun polled => polled.of_perm parts.symm, fun whole => whole.of_perm parts⟩
  rw [split, newest.append_iff, missed_eq_nil_iff]
  intro first isSelected second isMissed
  rw [List.mem_filter, Bool.and_eq_true] at isSelected
  exact missed_le isSelected.2.2 isMissed

/-- There is an answer to every query. -/
theorem exists_loads (params : Params) (table : List Row) :
    ∃ rows, (index params).Loads table rows :=
  Newest.exists_newest _ _ _

end

/-- A row with a category and a datetime. -/
def rowAt (id category : String) (createdAt : Int) (fourDigits : FourDigitYear createdAt) :
    Row where
  id := id
  category := category
  action := "update"
  actor := "user"
  resource := none
  result := some "success"
  detail := none
  endpoint := none
  payload := .null
  createdAt := createdAt
  updatedAt := createdAt
  fourDigits := fourDigits

def saturday : Row := rowAt "1" "vm" (instantOf ⟨2026, 5, 16⟩ 9 3 7) (by decide)

def sunday : Row := rowAt "2" "config" (instantOf ⟨2026, 5, 17⟩ 8 0 0) (by decide)

/-- The filters of a poll for one category. -/
def since (category : Option Parameter) (event : Row) : Params where
  category := category
  actor := none
  resource := none
  since := some (printedText event.createdAt)

theorem polled_iff_sunday :
    Polled (since (some (.text "config")) saturday) saturday [saturday, sunday] [sunday] := by
  have loads : (index (since (some (.text "config")) saturday)).Loads [saturday, sunday]
      [sunday] := by
    rw [Relation.Loads, selected_index rfl]
    exact ⟨[sunday], List.Perm.refl _, List.pairwise_singleton _ _, rfl⟩
  apply (polled_iff rfl rfl loads).mpr
  left
  intro row member passed _
  rcases List.mem_cons.mp member with rfl | member
  · cases passed
  · rw [List.mem_singleton.mp member]
    decide

/-- A poll since the last event does not give it again. -/
theorem lastEvent_not_polled :
    ¬ ∀ (table : List Row) (event : Row) (params : Params) (since : String) (rows : List Row),
      event ∈ table → event.asJson.field? "created_at" = some (.string since) →
        params.since = some since → (index params).Loads table rows →
          Polled params event table rows := by
  intro always
  have loads : (index (since none saturday)).Loads [saturday] [] := by
    rw [Relation.Loads, selected_index rfl]
    exact ⟨[], List.Perm.refl _, List.Pairwise.nil, rfl⟩
  have polled := always [saturday] saturday (since none saturday) _ [] List.mem_cons_self rfl rfl
    loads
  have lengths := polled.length_eq
  revert lengths
  decide

end MultipassWebui.Web.EventsController
