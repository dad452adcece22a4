import MultipassWebui.Calendar.Layouts
import MultipassWebui.Effect.Values

/-!
# The time a snapshot was taken

`Snapshots.parse_multipass_created` turns the text that multipass prints into
the time in UTC.  An abbreviation that the library does not know is read in the
zone of the host, and the table of the code is consulted only where the result
is reported at offset zero, under the abbreviation of the host.
-/

namespace MultipassWebui.Multipass

open MultipassWebui.Calendar
open MultipassWebui.Effect
open MultipassWebui.Effect.Value (nilOrEmpty requireText)
open MultipassWebui.Encoding
open MultipassWebui.Text (isWhite)

def MULTIPASS_CREATED_LAYOUTS : List (List Directive) :=
  [[.weekdayName, .blank, .monthName, .blank, .paddedDay, .blank,
      .hour, .char ':', .minute, .char ':', .second, .blank, .year, .blank, .zone],
    [.weekdayName, .blank, .paddedDay, .blank, .monthName, .blank,
      .hour, .char ':', .minute, .char ':', .second, .blank, .year, .blank, .zone],
    [.weekdayName, .blank, .paddedDay, .blank, .monthName, .blank, .year, .blank,
      .hour, .char ':', .minute, .char ':', .second, .blank, .zone],
    [.year, .char '-', .month, .char '-', .day, .char 'T',
      .hour, .char ':', .minute, .char ':', .second, .zone]]

/-- `KNOWN_ZONE_OFFSETS`, in seconds. -/
def KNOWN_ZONE_OFFSETS : List (String × Int) :=
  [("UTC", 0), ("GMT", 0), ("Z", 0), ("BST", 3600), ("IST", 3600), ("WEST", 3600), ("WET", 0),
    ("CET", 3600), ("CEST", 7200), ("EET", 7200), ("EEST", 10800), ("MSK", 10800),
    ("EST", -18000), ("EDT", -14400), ("CST", -21600), ("CDT", -18000), ("MST", -25200),
    ("MDT", -21600), ("PST", -28800), ("PDT", -25200), ("AKST", -32400), ("AKDT", -28800),
    ("HST", -36000), ("AEST", 36000), ("AEDT", 39600), ("JST", 32400), ("KST", 32400),
    ("SGT", 28800), ("HKT", 28800)]

/-- What the table subtracts from a time that is reported in a zone. -/
def knownOffset (zoneName : Option String) (utcOffset : Int) : Int :=
  match zoneName with
  | none => 0
  | some name =>
      if utcOffset = 0 ∧ name ≠ "UTC" then (KNOWN_ZONE_OFFSETS.lookup name).getD 0 else 0

/-- `parse_multipass_created` -/
def parseMultipassCreated (host : HostZone) (raw : Json) : Except RubyError String := do
  if ← nilOrEmpty raw then return ""
  else do
    let text ← requireText raw
    match MULTIPASS_CREATED_LAYOUTS.findSome? (strptime host text) with
    | some t => return iso8601 (t.instant - knownOffset t.zone t.utcOffset * 1000000)
    | none => return text

/-! ## The layout that reads a text -/

theorem readableZone_known {entry : String × Int} (known : entry ∈ KNOWN_ZONE_OFFSETS) :
    ReadableZone entry.1 := by
  have table : ∀ entry ∈ KNOWN_ZONE_OFFSETS,
      zoneLength entry.1.toList = some entry.1.toList.length ∧
        (entry.1.toList.head?.all fun char => !isWhite char) = true := by decide +kernel
  rcases table entry known with ⟨reads, visible⟩
  refine ⟨reads, fun char isFirst => ?_⟩
  rw [Option.mem_def.mp isFirst, Option.all_some, Bool.not_eq_true'] at visible
  exact visible

theorem layouts_readable {layout : List Directive} (accepted : layout ∈ MULTIPASS_CREATED_LAYOUTS) :
    readable layout = true ∧ layout.getLast? ≠ some .blank := by
  have table : ∀ layout ∈ MULTIPASS_CREATED_LAYOUTS,
      readable layout = true ∧ layout.getLast? ≠ some .blank := by decide
  exact table layout accepted

section

variable (host : HostZone) (time : CivilTime) {zone : String}

theorem strptime_own (zoneReads : ReadableZone zone) {layout : List Directive}
    (accepted : layout ∈ MULTIPASS_CREATED_LAYOUTS) :
    strptime host (time.write zone layout) layout = makeTime host (time.fields zone) := by
  obtain ⟨ok, ends⟩ := layouts_readable accepted
  have restored : ∀ layout ∈ MULTIPASS_CREATED_LAYOUTS,
      layout.foldl (time.set zone) ⟨0, 0, 0, 0, 0, 0, []⟩ = time.fields zone := by
    intro layout member
    simp only [MULTIPASS_CREATED_LAYOUTS, List.mem_cons, List.not_mem_nil, or_false] at member
    rcases member with rfl | rfl | rfl | rfl <;> rfl
  rw [strptime, time.readLayout_write zone zoneReads ok ends, restored layout accepted,
    Option.bind_some]

/-- No layout reads the text of a later one. -/
theorem layouts_pairwise (zoneReads : ReadableZone zone) :
    MULTIPASS_CREATED_LAYOUTS.Pairwise fun earlier later =>
      strptime host (time.write zone later) earlier = none := by
  have unread : ∀ earlier later : List Directive,
      (∀ fields, readLayout earlier (time.written zone later) fields = none) →
        strptime host (time.write zone later) earlier = none := by
    intro earlier later fails
    rw [strptime, CivilTime.write, String.toList_ofList]
    exact congrArg (Option.bind · _) (fails _)
  -- Two layouts read alike up to where they part.
  have parting : ∀ first layout other : List Directive, readable (first ++ layout) = true →
      first.getLast? ≠ some .blank →
      (∀ fields, readLayout other (time.written zone layout) fields = none) →
      ∀ fields, readLayout (first ++ other) (time.written zone (first ++ layout))
          fields = none := by
    intro first layout other ok ends fails fields
    rw [(time.readLayout_shared zone zoneReads layout other ok ends fields).1]
    exact fails _
  have monthMeetsDay := fun layout other ok =>
      parting [.weekdayName] (.blank :: .paddedDay :: layout)
    (.blank :: .monthName :: other) ok (by decide) (time.readLayout_month_day zone layout other)
  have hourMeetsYear := fun layout other ok =>
    parting [.weekdayName, .blank, .paddedDay, .blank, .monthName] (.blank :: .year :: layout)
      (.blank :: .hour :: .char ':' :: other) ok (by decide)
      (time.readLayout_hour_year zone layout other)
  have weekdayMeetsYear := time.readLayout_weekday_year zone
  simp only [MULTIPASS_CREATED_LAYOUTS, List.pairwise_cons, List.mem_cons, List.not_mem_nil,
    or_false, forall_eq_or_imp, forall_eq, List.Pairwise.nil, and_true, IsEmpty.forall_iff,
    implies_true]
  exact ⟨⟨unread _ _ (monthMeetsDay _ _ (by decide)), unread _ _ (monthMeetsDay _ _ (by decide)),
      unread _ _ (weekdayMeetsYear _ _)⟩,
    ⟨unread _ _ (hourMeetsYear _ _ (by decide)), unread _ _ (weekdayMeetsYear _ _)⟩,
    unread _ _ (weekdayMeetsYear _ _)⟩

/-- The text of a layout is read by that layout. -/
theorem findSome_strptime (zoneReads : ReadableZone zone) {layout : List Directive}
    (accepted : layout ∈ MULTIPASS_CREATED_LAYOUTS) {read : ZonedTime}
    (made : makeTime host (time.fields zone) = some read) :
    MULTIPASS_CREATED_LAYOUTS.findSome? (strptime host (time.write zone layout)) = some read := by
  obtain ⟨before, after, split⟩ := List.append_of_mem accepted
  have earlierFail : before.findSome? (strptime host (time.write zone layout)) = none := by
    rw [List.findSome?_eq_none_iff]
    intro earlier member
    have ordered := layouts_pairwise host time zoneReads
    rw [split, List.pairwise_append] at ordered
    exact ordered.2.2 earlier member layout (List.mem_cons_self ..)
  rw [split, List.findSome?_append, earlierFail, Option.none_or, List.findSome?_cons, ← made,
    strptime_own host time zoneReads accepted, made]

/-! ## The instant that is returned -/

/-- What the table subtracts for the host's own abbreviation, where the host is
at offset zero. -/
def hostEntry (instant : Int) : Int :=
  knownOffset (some (host.zoneAt instant).1) (host.zoneAt instant).2

/-- The offset by which a time with an abbreviation is resolved on the host: the
one that the library has for the abbreviation, unless it is zero, in which case
the entry of the host's own abbreviation decides; and the host's own offset and
entry for an abbreviation that the library does not know. -/
def resolvedOffset (zone : String) : Int :=
  match zoneOffset host zone.toList time.year with
  | some offset =>
      if offset ≠ 0 then offset
      else if zone = "UTC" ∨ zone = "Z" then 0
      else hostEntry host time.instant
  | none => host.localOffset time.instant + hostEntry host (host.localInstant time.instant)

/-- The time is resolved at an offset. -/
def Resolves (zone : String) (offset : Int) : Prop := resolvedOffset host time zone = offset

instance (zone : String) (offset : Int) : Decidable (Resolves host time zone offset) :=
  inferInstanceAs (Decidable (_ = _))

/-- The abbreviations of UTC. -/
theorem isUtc_known {entry : String × Int} (known : entry ∈ KNOWN_ZONE_OFFSETS) :
    ["-00:00", "-0000", "-00", "UTC", "Z", "UT"].contains
        (String.ofList (entry.1.toList.map Char.toUpper)) =
      decide (entry.1 = "UTC" ∨ entry.1 = "Z") := by
  have table : ∀ entry ∈ KNOWN_ZONE_OFFSETS,
      ["-00:00", "-0000", "-00", "UTC", "Z", "UT"].contains
          (String.ofList (entry.1.toList.map Char.toUpper)) =
        decide (entry.1 = "UTC" ∨ entry.1 = "Z") := by decide +kernel
  exact table entry known

/-- UTC is at offset zero on every host. -/
theorem zoneOffset_utc (year : Int) {zone : String} (utc : zone = "UTC" ∨ zone = "Z") :
    zoneOffset host zone.toList year = some 0 := by
  rcases utc with rfl | rfl <;> rfl

theorem makeTime_fields {entry : String × Int} (known : entry ∈ KNOWN_ZONE_OFFSETS) :
    ∃ read, makeTime host (time.fields entry.1) = some read ∧
      read.instant - knownOffset read.zone read.utcOffset * 1000000 =
        time.instant - resolvedOffset host time entry.1 * 1000000 := by
  have noon : ¬(time.hour = 24 ∧ (time.minute, time.second) ≠ (0, 0)) := by
    have bound := time.hour_lt
    omega
  have made : makeTime host (time.fields entry.1) =
      match zoneOffset host entry.1.toList time.year with
      | some offset =>
          some (forceZone host (time.instant - offset * 1000000) entry.1.toList offset)
      | none =>
          some ⟨host.localInstant time.instant,
            some (host.zoneAt (host.localInstant time.instant)).1,
            (host.zoneAt (host.localInstant time.instant)).2⟩ := if_neg noon
  rw [made]
  unfold resolvedOffset
  cases resolved : zoneOffset host entry.1.toList time.year with
  | none =>
      refine ⟨_, rfl, ?_⟩
      simp only [HostZone.localInstant, hostEntry]
      omega
  | some offset =>
      refine ⟨_, rfl, ?_⟩
      simp only [forceZone, isUtc_known known, decide_eq_true_eq]
      by_cases utc : entry.1 = "UTC" ∨ entry.1 = "Z"
      · obtain rfl : offset = 0 :=
          Option.some.inj (resolved.symm.trans (zoneOffset_utc host time.year utc))
        simp [utc, knownOffset]
      · by_cases zero : offset = 0
        · subst zero
          by_cases here : (0 : Int) = (host.zoneAt time.instant).2
          · simp [utc, hostEntry, ← here]
          · simp [utc, hostEntry, here, knownOffset, Ne.symm here]
        · by_cases here : offset = (host.zoneAt (time.instant - offset * 1000000)).2
          · have apart := here ▸ zero
            simp [utc, zero, ← here, knownOffset]
          · simp [utc, zero, here, knownOffset]

theorem write_ne_empty {zone : String} {layout : List Directive}
    (accepted : layout ∈ MULTIPASS_CREATED_LAYOUTS) : time.write zone layout ≠ "" := by
  have text : time.written zone layout ≠ [] := by
    have blank : ∃ mark, .char mark ∈ layout := by
      have table : ∀ layout ∈ MULTIPASS_CREATED_LAYOUTS, .char ':' ∈ layout := by decide
      exact ⟨':', table layout accepted⟩
    obtain ⟨mark, member⟩ := blank
    exact List.ne_nil_of_mem (List.mem_flatMap.mpr ⟨_, member, List.mem_singleton.mpr rfl⟩)
  intro empty
  have lists := congrArg String.toList empty
  rw [CivilTime.write, String.toList_ofList] at lists
  exact text lists

/-- A text that multipass printed is read at the offset that the host resolves. -/
theorem parseMultipassCreated_write {layout : List Directive}
    (accepted : layout ∈ MULTIPASS_CREATED_LAYOUTS) {entry : String × Int}
    (known : entry ∈ KNOWN_ZONE_OFFSETS) :
    parseMultipassCreated host (.string (time.write entry.1 layout)) =
      .ok (iso8601 (time.instant - resolvedOffset host time entry.1 * 1000000)) := by
  obtain ⟨read, made, instant⟩ := makeTime_fields host time known
  have found := findSome_strptime host time (readableZone_known known) accepted made
  have text : nilOrEmpty (.string (time.write entry.1 layout)) = .ok false :=
    congrArg Except.ok (decide_eq_false (write_ne_empty time accepted))
  unfold parseMultipassCreated
  rw [text, ← instant]
  simp only [requireText, found, bind, Except.bind, pure, Except.pure, Bool.false_eq_true, if_false]

end

/-- A time that multipass printed is turned into the text of its instant on the
hosts that resolve its abbreviation at the offset of the table, and on no other. -/
theorem parseMultipassCreated_iff (host : HostZone) {layout : List Directive}
    (accepted : layout ∈ MULTIPASS_CREATED_LAYOUTS) (time : CivilTime) {entry : String × Int}
    (known : entry ∈ KNOWN_ZONE_OFFSETS) :
    parseMultipassCreated host (.string (time.write entry.1 layout)) =
        .ok (iso8601 (time.instant - entry.2 * 1000000)) ↔
      Resolves host time entry.1 entry.2 := by
  rw [parseMultipassCreated_write host time accepted known, Except.ok.injEq]
  have whole : time.instant % 1000000 = 0 := by
    simp only [CivilTime.instant, instantOf, usecPerDay, usecPerHour, usecPerMinute]
    omega
  constructor
  · intro equal
    have same := iso8601_injective (by omega) (by omega) equal
    rw [Resolves]
    omega
  · intro resolves
    rw [show resolvedOffset host time entry.1 = entry.2 from resolves]

/-- A host on UTC, and one on British summer time. -/
def utcHost : HostZone := ⟨fun _ => 0, fun _ => ("UTC", 0)⟩
def londonHost : HostZone := ⟨fun _ => 3600, fun _ => ("BST", 3600)⟩

/-- 2026-04-16 20:52:16 -/
def aprilEvening : CivilTime :=
  ⟨2026, 4, 16, 20, 52, 16, by decide, by decide, by decide, by decide, by decide, by decide,
    by decide⟩

def ansicLayout : List Directive :=
  [.weekdayName, .blank, .monthName, .blank, .paddedDay, .blank,
    .hour, .char ':', .minute, .char ':', .second, .blank, .year, .blank, .zone]

theorem parseMultipassCreated_iff_london :
    ("BST", 3600) ∈ KNOWN_ZONE_OFFSETS ∧ ansicLayout ∈ MULTIPASS_CREATED_LAYOUTS ∧
      Resolves londonHost aprilEvening "BST" 3600 ∧
      parseMultipassCreated londonHost (.string (aprilEvening.write "BST" ansicLayout)) =
        .ok (iso8601 (aprilEvening.instant - 3600 * 1000000)) :=
  have known : ("BST", (3600 : Int)) ∈ KNOWN_ZONE_OFFSETS := by decide
  have accepted : ansicLayout ∈ MULTIPASS_CREATED_LAYOUTS := by decide
  have resolves : Resolves londonHost aprilEvening "BST" 3600 := by decide +kernel
  ⟨known, accepted, resolves,
    (parseMultipassCreated_iff londonHost accepted aprilEvening known).mpr resolves⟩

/-- A host on UTC takes British summer time for UTC. -/
theorem parseMultipassCreated_utc_wrong :
    aprilEvening.write "BST" ansicLayout = "Thu Apr 16 20:52:16 2026 BST" ∧
      iso8601 (aprilEvening.instant - 3600 * 1000000) = "2026-04-16T19:52:16Z" ∧
      parseMultipassCreated utcHost (.string "Thu Apr 16 20:52:16 2026 BST") =
        .ok "2026-04-16T20:52:16Z" := by
  decide +kernel

end MultipassWebui.Multipass
