import MultipassWebui.Calendar.Civil
import MultipassWebui.Text.Strings

/-!
# Reading and writing time by a layout

`Time.strptime` of Ruby for the directives that the development needs, and the
text that `strftime` writes for the same layout.  The zone abbreviations that
are not in the table of the library are resolved by the zone of the host, which
is a parameter.
-/

namespace MultipassWebui.Calendar

open MultipassWebui.Text

inductive Directive where
  /-- `%a` -/
  | weekdayName
  /-- `%b` -/
  | monthName
  /-- `%m` -/
  | month
  /-- `%d` -/
  | day
  /-- `%e`: as `%d`, and written with a blank in place of a leading zero. -/
  | paddedDay
  /-- `%H` -/
  | hour
  /-- `%M` -/
  | minute
  /-- `%S` -/
  | second
  /-- `%Y` before something that is not a digit. -/
  | year
  /-- `%Z` and `%z`, which read the same. -/
  | zone
  | blank
  | char (char : Char)
  deriving DecidableEq, Repr

/-- What was read. -/
structure Fields where
  year : Int
  month : Nat
  day : Nat
  hour : Nat
  minute : Nat
  second : Nat
  zone : List Char
  deriving DecidableEq, Repr

/-! ## Reading -/

/-- Full names before abbreviations. -/
def dayNames : List String :=
  ["sunday", "monday", "tuesday", "wednesday", "thursday", "friday", "saturday",
    "sun", "mon", "tue", "wed", "thu", "fri", "sat"]

def monthNames : List String :=
  ["january", "february", "march", "april", "may", "june", "july", "august", "september",
    "october", "november", "december",
    "jan", "feb", "mar", "apr", "may", "jun", "jul", "aug", "sep", "oct", "nov", "dec"]

/-- The first of the names that the text begins with, in any case. -/
def readName (names : List String) (text : List Char) : Option (Nat × List Char) :=
  (names.zipIdx.find? fun entry => entry.1.toList.isPrefixOf (text.map Char.toLower)).map
    fun entry => (entry.2, text.drop entry.1.toList.length)

/-- The digits at the beginning of a text, at most `limit` of them. -/
def readDigits (limit : Nat) (text : List Char) : Option (Nat × List Char) :=
  match (text.take limit).takeWhile isDigit with
  | [] => none
  | digits => some (Nat.ofDigitChars 10 digits 0, text.drop digits.length)

/-- A number of two digits, the first of which can be blank. -/
def readPadded (text : List Char) : Option (Nat × List Char) :=
  match text with
  | ' ' :: rest => readDigits 1 rest
  | _ => readDigits 2 text

/-- A year: a sign and all the digits there are. -/
def readYear (text : List Char) : Option (Int × List Char) :=
  match text with
  | '-' :: rest => (readDigits rest.length rest).map fun (value, left) => (-(value : Int), left)
  | '+' :: rest => (readDigits rest.length rest).map fun (value, left) => ((value : Int), left)
  | _ => (readDigits text.length text).map fun (value, left) => ((value : Int), left)

/-- A letter, digit or underscore does not follow. -/
def atBoundary (text : List Char) : Bool :=
  !text.head?.any fun char => isAlnum char || char = '_'

/-- The text begins with the word, in any case. -/
def leads (word : String) (text : List Char) : Bool :=
  word.toList.isPrefixOf (text.map Char.toLower)

/-- `(?:gmt|utc?)?[-+]\d+(?:[,.:]\d+(?::\d+)?)?`: the length of the match. -/
def numericZone (text : List Char) : Option Nat :=
  let lead :=
    if leads "gmt" text || leads "utc" text then 3 else if leads "ut" text then 2 else 0
  let digits := fun position => ((text.drop position).takeWhile isDigit).length
  match text.drop lead with
  | sign :: _ =>
      let hours := digits (lead + 1)
      if (sign = '+' || sign = '-') && 0 < hours then
        let first := lead + 1 + hours
        match text.drop first with
        | mark :: _ =>
            let minutes := digits (first + 1)
            if (mark = ',' || mark = '.' || mark = ':') && 0 < minutes then
              let second := first + 1 + minutes
              let seconds := digits (second + 1)
              if (text.drop second).head? = some ':' && 0 < seconds then
                some (second + 1 + seconds)
              else some second
            else some first
        | [] => some first
      else none
  | [] => none

/-- `[[:alpha:].\s]+(?:standard|daylight)\stime\b`: the length of the match. -/
def namedZone (text : List Char) : Option Nat :=
  let run := (text.takeWhile fun char => char.isAlpha || char = '.' || isWhite char).length
  let ends := fun length =>
    let tail := ((text.take length).drop (length - 13)).map Char.toLower
    13 < length && atBoundary (text.drop length) &&
      (leads "standard" tail || leads "daylight" tail) &&
      ((tail.drop 8).head?.any isWhite) && leads "time" (tail.drop 9)
  ((List.range (run + 1)).reverse).find? ends

/-- `[[:alpha:]]+(?:\sdst)?\b`: the length of the match. -/
def abbreviatedZone (text : List Char) : Option Nat :=
  let run := (text.takeWhile Char.isAlpha).length
  let rest := text.drop run
  if run = 0 then none
  else if rest.head?.any isWhite && leads "dst" rest.tail && atBoundary (rest.drop 4) then
    some (run + 4)
  else if atBoundary rest then some run
  else none

/-- The length of a zone at the beginning of a text. -/
def zoneLength (text : List Char) : Option Nat :=
  (numericZone text).or ((namedZone text).or (abbreviatedZone text))

/-- Read one directive. -/
def readDirective (directive : Directive) (text : List Char) (fields : Fields) :
    Option (List Char × Fields) :=
  match directive with
  | .weekdayName => (readName dayNames text).map fun (_, rest) => (rest, fields)
  | .monthName =>
      (readName monthNames text).map fun (position, rest) =>
        (rest, { fields with month := position % 12 + 1 })
  | .month =>
      (readDigits 2 text).bind fun (value, rest) =>
        if 1 ≤ value ∧ value ≤ 12 then some (rest, { fields with month := value }) else none
  | .day | .paddedDay =>
      (readPadded text).bind fun (value, rest) =>
        if 1 ≤ value ∧ value ≤ 31 then some (rest, { fields with day := value }) else none
  | .hour =>
      (readPadded text).bind fun (value, rest) =>
        if value ≤ 24 then some (rest, { fields with hour := value }) else none
  | .minute =>
      (readDigits 2 text).bind fun (value, rest) =>
        if value ≤ 59 then some (rest, { fields with minute := value }) else none
  | .second =>
      (readDigits 2 text).bind fun (value, rest) =>
        if value ≤ 60 then some (rest, { fields with second := value }) else none
  | .year => (readYear text).map fun (value, rest) => (rest, { fields with year := value })
  | .zone =>
      (zoneLength text).map fun length =>
        (text.drop length, { fields with zone := text.take length })
  | .blank => some (text.dropWhile isWhite, fields)
  | .char char => if text.head? = some char then some (text.tail, fields) else none

/-- Read a layout; what is left of the text is ignored. -/
def readLayout : List Directive → List Char → Fields → Option Fields
  | [], _, fields => some fields
  | directive :: layout, text, fields =>
      (readDirective directive text fields).bind fun (rest, read) => readLayout layout rest read

/-! ## Zones -/

/-- The zone of a host, with offsets in seconds. -/
structure HostZone where
  /-- The offset by which a local time, given as if it were UTC, is resolved. -/
  localOffset : Int → Int
  /-- The abbreviation and the offset at an instant. -/
  zoneAt : Int → String × Int

/-- The instant of a local time. -/
def HostZone.localInstant (host : HostZone) (time : Int) : Int :=
  time - host.localOffset time * 1000000

/-- An instant with the zone it is reported in. -/
structure ZonedTime where
  instant : Int
  zone : Option String
  utcOffset : Int
  deriving DecidableEq, Repr

/-- `Time::ZoneOffset`, in hours; the letters are the military zones. -/
def zoneOffsets : List (String × Int) :=
  [("UTC", 0), ("Z", 0), ("UT", 0), ("GMT", 0), ("EST", -5), ("EDT", -4), ("CST", -6),
    ("CDT", -5), ("MST", -7), ("MDT", -6), ("PST", -8), ("PDT", -7), ("A", 1), ("B", 2), ("C", 3),
    ("D", 4), ("E", 5), ("F", 6), ("G", 7), ("H", 8), ("I", 9), ("K", 10), ("L", 11), ("M", 12),
    ("N", -1), ("O", -2), ("P", -3), ("Q", -4), ("R", -5), ("S", -6), ("T", -7), ("U", -8),
    ("V", -9), ("W", -10), ("X", -11), ("Y", -12)]

/-- The numbers of a numeric offset: `+hh`, `+hhmm`, `+hh:mm`, and with seconds. -/
def numericOffset (zone : List Char) : Option Int :=
  let value := fun (sign : Char) (digits : List Char) =>
    if (sign = '+' || sign = '-') && digits.all isDigit then
      let pair := fun position => Nat.ofDigitChars 10 ((digits.drop position).take 2) 0
      let seconds : Int := pair 0 * 3600 + pair 2 * 60 + pair 4
      some (if sign = '-' then -seconds else seconds)
    else none
  match zone with
  | [sign, a, b] => value sign [a, b]
  | [sign, a, b, c, d] => value sign [a, b, c, d]
  | [sign, a, b, ':', c, d] => value sign [a, b, c, d]
  | [sign, a, b, c, d, e, f] => value sign [a, b, c, d, e, f]
  | [sign, a, b, ':', c, d, ':', e, f] => value sign [a, b, c, d, e, f]
  | _ => none

/-- `Time.zone_offset`: the numeric offsets, the table, and the abbreviations of
the host in January and in July of the year. -/
def zoneOffset (host : HostZone) (zone : List Char) (year : Int) : Option Int :=
  let name := String.ofList (zone.map Char.toUpper)
  let january := host.zoneAt (host.localInstant (instantOf ⟨year, 1, 1⟩ 0 0 0))
  let july := host.zoneAt (host.localInstant (instantOf ⟨year, 7, 1⟩ 0 0 0))
  (numericOffset (zone.map Char.toUpper)).or
    (((zoneOffsets.find? fun entry => entry.1 = name).map fun entry => entry.2 * 3600).or
      (if january.1.map Char.toUpper = name then some january.2
      else if july.1.map Char.toUpper = name then some july.2
      else none))

/-- `Time.force_zone!`: UTC, or the zone of the host if its offset is the same,
or the bare offset. -/
def forceZone (host : HostZone) (instant : Int) (zone : List Char) (offset : Int) : ZonedTime :=
  if ["-00:00", "-0000", "-00", "UTC", "Z", "UT"].contains (String.ofList (zone.map Char.toUpper))
  then ⟨instant, some "UTC", 0⟩
  else if offset = (host.zoneAt instant).2 then
    ⟨instant, some (host.zoneAt instant).1, (host.zoneAt instant).2⟩
  else ⟨instant, none, offset⟩

/-- The fields as if they were UTC. -/
def Fields.instant (fields : Fields) : Int :=
  instantOf ⟨fields.year, fields.month, fields.day⟩ fields.hour fields.minute fields.second

/-- `Time.make_time`; 24 o'clock is the end of a day and nothing later. -/
def makeTime (host : HostZone) (fields : Fields) : Option ZonedTime :=
  if fields.hour = 24 ∧ (fields.minute, fields.second) ≠ (0, 0) then none
  else
    match zoneOffset host fields.zone fields.year with
    | some offset =>
        some (forceZone host (fields.instant - offset * 1000000) fields.zone offset)
    | none =>
        let instant := host.localInstant fields.instant
        some ⟨instant, some (host.zoneAt instant).1, (host.zoneAt instant).2⟩

/-- `Time.strptime`; `none` is an `ArgumentError`. -/
def strptime (host : HostZone) (text : String) (layout : List Directive) : Option ZonedTime :=
  (readLayout layout text.toList ⟨0, 0, 0, 0, 0, 0, []⟩).bind (makeTime host)

/-! ## Writing -/

/-- A number with leading zeros. -/
def padded (width value : Nat) : List Char :=
  List.replicate (width - (Nat.toDigits 10 value).length) '0' ++ Nat.toDigits 10 value

/-- A year, with at least four digits. -/
def yearText (year : Int) : List Char :=
  (if year < 0 then ['-'] else []) ++ padded 4 year.natAbs

/-- The seconds of an instant. -/
def second (t : Int) : Int := t % usecPerMinute / 1000000

/-- What follows the year in `iso8601`. -/
def afterYear (t : Int) : List Char :=
  '-' :: twoDigits (month t).toNat ++ '-' :: twoDigits (day t).toNat ++
    'T' :: twoDigits (hour t).toNat ++ ':' :: twoDigits (minute t).toNat ++
    ':' :: twoDigits (second t).toNat ++ ['Z']

/-- `t.getutc.iso8601` -/
def iso8601 (t : Int) : String := String.ofList (yearText (year t) ++ afterYear t)

example : iso8601 (instantOf ⟨2026, 4, 16⟩ 19 52 16) = "2026-04-16T19:52:16Z" := by decide

def daysInMonth (year month : Nat) : Nat :=
  if month = 2 then if year % 4 = 0 ∧ (year % 100 ≠ 0 ∨ year % 400 = 0) then 29 else 28
  else if month = 4 ∨ month = 6 ∨ month = 9 ∨ month = 11 then 30
  else 31

/-- A date and a time of day. -/
structure CivilTime where
  year : Nat
  month : Nat
  day : Nat
  hour : Nat
  minute : Nat
  second : Nat
  month_pos : 1 ≤ month
  month_le : month ≤ 12
  day_pos : 1 ≤ day
  day_le : day ≤ daysInMonth year month
  hour_lt : hour < 24
  minute_lt : minute < 60
  second_lt : second < 60

namespace CivilTime

/-- The instant at which a clock that runs on UTC shows the time. -/
def instant (time : CivilTime) : Int :=
  instantOf ⟨time.year, time.month, time.day⟩ time.hour time.minute time.second

def shortDays : List String := ["Sun", "Mon", "Tue", "Wed", "Thu", "Fri", "Sat"]

def shortMonths : List String :=
  ["Jan", "Feb", "Mar", "Apr", "May", "Jun", "Jul", "Aug", "Sep", "Oct", "Nov", "Dec"]

/-- The text of a directive. -/
def writeDirective (time : CivilTime) (zone : String) : Directive → List Char
  | .weekdayName => (shortDays.getD (wday time.instant).toNat "").toList
  | .monthName => (shortMonths.getD (time.month - 1) "").toList
  | .month => twoDigits time.month
  | .day => twoDigits time.day
  | .paddedDay => if time.day < 10 then [' ', Nat.digitChar time.day] else twoDigits time.day
  | .hour => twoDigits time.hour
  | .minute => twoDigits time.minute
  | .second => twoDigits time.second
  | .year => yearText time.year
  | .zone => zone.toList
  | .blank => [' ']
  | .char char => [char]

/-- `strftime`, with a text for the zone. -/
def write (time : CivilTime) (zone : String) (layout : List Directive) : String :=
  String.ofList (layout.flatMap (time.writeDirective zone))

/-- The fields that reading a layout is to give. -/
def fields (time : CivilTime) (zone : String) : Fields :=
  ⟨time.year, time.month, time.day, time.hour, time.minute, time.second, zone.toList⟩

end CivilTime

end MultipassWebui.Calendar
