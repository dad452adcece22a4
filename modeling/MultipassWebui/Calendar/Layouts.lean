import MultipassWebui.Calendar.Strptime

/-!
# Reading what was written

A layout in which the end of every directive can be told from what follows is
read back: every directive restores the field that it was written from.
-/

namespace MultipassWebui.Calendar

open MultipassWebui.Text

/-! ## Numbers that are read back -/

theorem padded_isDigit {width value : Nat} {char : Char} (member : char ∈ padded width value) :
    isDigit char = true := by
  rcases List.mem_append.mp member with zero | digit
  · rw [List.eq_of_mem_replicate zero]
    decide
  · exact toDigits_isDigit digit

theorem ofDigitChars_padded (width value : Nat) :
    Nat.ofDigitChars 10 (padded width value) 0 = value := by
  rw [padded, Nat.ofDigitChars_append, Nat.ofDigitChars_replicate_zero, Nat.mul_zero,
    Nat.ofDigitChars_ten_toDigits]

theorem padded_ne_nil (width value : Nat) : padded width value ≠ [] := by
  intro empty
  have digits := (List.append_eq_nil_iff.mp empty).2
  exact absurd digits Nat.toDigits_ne_nil

/-- Digits that are not followed by a digit are read back. -/
theorem readDigits_digits {digits rest : List Char} {limit : Nat} (nonempty : digits ≠ [])
    (areDigits : ∀ char ∈ digits, isDigit char = true) (fits : digits.length ≤ limit)
    (ends : digits.length = limit ∨ ∀ char ∈ rest.head?, isDigit char = false) :
    readDigits limit (digits ++ rest) = some (Nat.ofDigitChars 10 digits 0, rest) := by
  have taken : ((digits ++ rest).take limit).takeWhile isDigit = digits := by
    rw [List.take_append, List.take_of_length_le fits, List.takeWhile_append_of_pos areDigits]
    rcases ends with full | ended
    · rw [full, Nat.sub_self, List.take_zero, List.takeWhile_nil, List.append_nil]
    · cases rest with
      | nil => simp
      | cons head tail =>
          have stops := ended head rfl
          cases limit - digits.length <;> simp [stops]
  unfold readDigits
  rw [taken]
  cases digits with
  | nil => exact absurd rfl nonempty
  | cons head tail => simp

theorem readDigits_padded (width value : Nat) {rest : List Char}
    (ends : ∀ char ∈ rest.head?, isDigit char = false) :
    readDigits (padded width value ++ rest).length (padded width value ++ rest) =
      some (value, rest) := by
  rw [readDigits_digits (padded_ne_nil width value) (fun char => padded_isDigit)
    (by rw [List.length_append]; exact Nat.le_add_right _ _) (Or.inr ends), ofDigitChars_padded]

theorem twoDigits_isDigit {value : Nat} (bound : value < 100) {char : Char}
    (member : char ∈ twoDigits value) : isDigit char = true := by
  have table : ∀ digit : Fin 10, isDigit (Char.ofNat (48 + digit)) = true := by decide
  simp only [twoDigits, List.mem_cons, List.not_mem_nil, or_false] at member
  rcases member with rfl | rfl
  · exact table ⟨value / 10, by omega⟩
  · exact table ⟨value % 10, by omega⟩

theorem dropWhile_visible {char : Char} (visible : isWhite char = false) (rest : List Char) :
    (char :: rest).dropWhile isWhite = char :: rest :=
  List.dropWhile_cons_of_neg (by rw [visible]; simp)

theorem ofDigitChars_twoDigits {value : Nat} (bound : value < 100) :
    Nat.ofDigitChars 10 (twoDigits value) 0 = value := by
  have table : ∀ tens ones : Fin 10,
      Nat.ofDigitChars 10 [Char.ofNat (48 + tens), Char.ofNat (48 + ones)] 0 =
        tens.val * 10 + ones.val := by decide
  rw [twoDigits, table ⟨value / 10, by omega⟩ ⟨value % 10, by omega⟩]
  simp only
  omega

theorem readDigits_twoDigits {value : Nat} (bound : value < 100) (rest : List Char) :
    readDigits 2 (twoDigits value ++ rest) = some (value, rest) := by
  have nonempty : twoDigits value ≠ [] := List.cons_ne_nil _ _
  rw [readDigits_digits nonempty (fun char => twoDigits_isDigit bound) (Nat.le_refl 2) (Or.inl rfl),
    ofDigitChars_twoDigits bound]

theorem readPadded_twoDigits {value : Nat} (bound : value < 100) (rest : List Char) :
    readPadded (twoDigits value ++ rest) = some (value, rest) := by
  have digit := twoDigits_isDigit bound (List.mem_cons_self ..)
  have read := readDigits_twoDigits bound rest
  unfold readPadded
  split
  · rename_i left shape
    have blank : Char.ofNat (48 + value / 10) = ' ' := (List.cons.inj shape).1
    rw [blank] at digit
    exact absurd digit (by decide)
  · exact read

/-- A digit before something that is not a digit. -/
theorem readDigits_digit {value limit : Nat} (bound : value < 10) (positive : 0 < limit)
    {rest : List Char} (ends : ∀ char ∈ rest.head?, isDigit char = false) :
    readDigits limit (Nat.digitChar value :: rest) = some (value, rest) := by
  have table : ∀ digit : Fin 10, isDigit (Nat.digitChar digit) = true ∧
      Nat.ofDigitChars 10 [Nat.digitChar digit] 0 = digit.val := by decide
  have entry := table ⟨value, bound⟩
  have digit : ∀ char ∈ [Nat.digitChar value], isDigit char = true := by
    intro char member
    rw [List.mem_singleton.mp member]
    exact entry.1
  have read := readDigits_digits (List.cons_ne_nil (Nat.digitChar value) []) digit positive
    (Or.inr ends)
  rw [entry.2] at read
  exact read

theorem readYear_yearText (year : Nat) {rest : List Char}
    (ends : ∀ char ∈ rest.head?, isDigit char = false) :
    readYear (yearText year ++ rest) = some ((year : Int), rest) := by
  have text : yearText year = padded 4 year := by
    rw [yearText, if_neg (by omega), List.nil_append, Int.natAbs_natCast]
  have first : ∀ char ∈ (padded 4 year ++ rest).head?, isDigit char = true := by
    intro char head
    rw [List.head?_append_of_ne_nil _ (padded_ne_nil 4 year)] at head
    exact padded_isDigit (List.mem_of_mem_head? head)
  rw [text]
  have read := readDigits_padded 4 year ends
  unfold readYear
  split
  · rename_i shape
    exact absurd (first '-' (by rw [shape]; rfl)) (by decide)
  · rename_i shape
    exact absurd (first '+' (by rw [shape]; rfl)) (by decide)
  · rw [read]
    rfl

/-! ## Directives that are read back -/

/-- The field that a directive restores. -/
def CivilTime.set (time : CivilTime) (zone : String) (fields : Fields) : Directive → Fields
  | .monthName | .month => { fields with month := time.month }
  | .day | .paddedDay => { fields with day := time.day }
  | .hour => { fields with hour := time.hour }
  | .minute => { fields with minute := time.minute }
  | .second => { fields with second := time.second }
  | .year => { fields with year := time.year }
  | .zone => { fields with zone := zone.toList }
  | .weekdayName | .blank | .char _ => fields

/-- What follows a directive shows where its text ends. -/
def followed (directive : Directive) (layout : List Directive) : Bool :=
  match directive, layout with
  | .weekdayName, next :: _ | .monthName, next :: _ | .paddedDay, next :: _ => next = .blank
  | .year, .char char :: _ => !isDigit char
  | .year, next :: _ => next = .blank
  | .blank, .char char :: _ => !isWhite char
  | .blank, next :: _ => next ≠ .blank
  | .zone, rest => rest.isEmpty
  | .weekdayName, [] | .monthName, [] | .paddedDay, [] | .year, [] | .blank, [] => false
  | _, _ => true

/-- A zone whose whole text is read, and that does not begin with a blank. -/
structure ReadableZone (zone : String) : Prop where
  reads : zoneLength zone.toList = some zone.toList.length
  visible : ∀ char ∈ zone.toList.head?, isWhite char = false

/-- Every directive of the layout is followed by what shows where it ends. -/
def readable : List Directive → Bool
  | [] => true
  | directive :: layout => followed directive layout && readable layout

theorem readLayout_of_some {directive : Directive} {text left : List Char} {fields read : Fields}
    (reads : readDirective directive text fields = some (left, read)) (layout : List Directive) :
    readLayout (directive :: layout) text fields = readLayout layout left read := by
  rw [readLayout, reads, Option.bind_some]

theorem readLayout_of_none {directive : Directive} {text : List Char} {fields : Fields}
    (fails : readDirective directive text fields = none) (layout : List Directive) :
    readLayout (directive :: layout) text fields = none := by
  rw [readLayout, fails, Option.bind_none]

namespace CivilTime

variable (time : CivilTime) (zone : String)

/-- The text of a layout. -/
def written (layout : List Directive) : List Char := layout.flatMap (time.writeDirective zone)

theorem written_cons (directive : Directive) (layout : List Directive) :
    time.written zone (directive :: layout) =
      time.writeDirective zone directive ++ time.written zone layout :=
  rfl

theorem wday_index_lt : (wday time.instant).toNat < 7 := by
  simp only [wday]
  omega

theorem day_lt : time.day < 32 := by
  have bound := time.day_le
  simp only [daysInMonth] at bound
  split at bound <;> (try split at bound) <;> omega

/-- The abbreviation of a weekday, before a blank. -/
theorem readName_day {index : Nat} (bound : index < 7) (rest : List Char) :
    ∃ position, readName dayNames ((shortDays.getD index "").toList ++ ' ' :: rest) =
      some (position, ' ' :: rest) := by
  refine ⟨index + 7, ?_⟩
  match index, bound with
  | 0, _ | 1, _ | 2, _ | 3, _ | 4, _ | 5, _ | 6, _ => rfl

/-- The abbreviation of a month, before a blank. -/
theorem readName_month {index : Nat} (bound : index < 12) (rest : List Char) :
    ∃ position, readName monthNames ((shortMonths.getD index "").toList ++ ' ' :: rest) =
      some (position, ' ' :: rest) ∧ position % 12 = index := by
  match index, bound with
  | 4, _ => exact ⟨4, rfl, rfl⟩
  | 0, _ | 1, _ | 2, _ | 3, _ | 5, _ | 6, _ | 7, _ | 8, _ | 9, _ | 10, _ | 11, _ =>
      exact ⟨_, rfl, rfl⟩

/-- The text of a day of the month, before something that is not a digit. -/
theorem readPadded_day {rest : List Char} (ends : ∀ char ∈ rest.head?, isDigit char = false) :
    readPadded (time.writeDirective zone .paddedDay ++ rest) = some (time.day, rest) ∧
      readPadded ((time.writeDirective zone .paddedDay ++ rest).dropWhile isWhite) =
        some (time.day, rest) := by
  simp only [writeDirective]
  by_cases short : time.day < 10
  · have notWhite : ∀ digit : Fin 10, isWhite (Nat.digitChar digit) = false ∧
        Nat.digitChar digit ≠ ' ' := by decide
    obtain ⟨visible, notBlank⟩ := notWhite ⟨time.day, short⟩
    have trimmed : (' ' :: Nat.digitChar time.day :: rest).dropWhile isWhite =
        Nat.digitChar time.day :: rest := by
      rw [List.dropWhile_cons_of_pos (by decide), dropWhile_visible visible]
    rw [if_pos short]
    refine ⟨readDigits_digit short Nat.one_pos ends, ?_⟩
    show readPadded ((' ' :: Nat.digitChar time.day :: rest).dropWhile isWhite) = _
    rw [trimmed]
    unfold readPadded
    split
    · rename_i shape
      exact absurd (List.cons.inj shape).1 notBlank
    · exact readDigits_digit short (Nat.succ_pos 1) ends
  · have bound : time.day < 100 := Nat.lt_trans time.day_lt (by decide)
    have digit := twoDigits_isDigit bound (List.mem_cons_self ..)
    have visible := isWhite_of_isDigit digit
    rw [if_neg short]
    refine ⟨readPadded_twoDigits bound rest, ?_⟩
    have kept : (twoDigits time.day ++ rest).dropWhile isWhite = twoDigits time.day ++ rest :=
      dropWhile_visible visible _
    rw [kept]
    exact readPadded_twoDigits bound rest

/-- What begins with a blank does not begin with a digit. -/
theorem written_blank_head (layout : List Directive) :
    ∀ char ∈ (time.written zone (.blank :: layout)).head?, isDigit char = false := by
  rintro char head
  obtain rfl : ' ' = char := Option.some.inj head
  decide

/-- A directive that can be told from what follows it is read back. -/
theorem readDirective_written {directive : Directive} {layout : List Directive}
    (zoneReads : ReadableZone zone) (ok : followed directive layout = true) (fields : Fields) :
    readDirective directive (time.written zone (directive :: layout)) fields =
      some (if directive = .blank then (time.written zone layout).dropWhile isWhite
        else time.written zone layout, time.set zone fields directive) := by
  rw [written_cons]
  cases directive with
  | weekdayName =>
      cases layout with
      | nil => contradiction
      | cons next layout =>
          obtain rfl : next = .blank := of_decide_eq_true ok
          obtain ⟨position, read⟩ :=
            readName_day time.wday_index_lt (time.written zone layout)
          exact congrArg (Option.map _) read
  | monthName =>
      cases layout with
      | nil => contradiction
      | cons next layout =>
          obtain rfl : next = .blank := of_decide_eq_true ok
          have low := time.month_pos
          have high := time.month_le
          obtain ⟨position, read, index⟩ :=
            readName_month (show time.month - 1 < 12 by omega) (time.written zone layout)
          have restored : position % 12 + 1 = time.month := by omega
          apply (congrArg (Option.map _) read).trans
          simp only [Option.map_some, restored]
          rfl
  | month =>
      have bound : time.month < 100 := Nat.lt_of_le_of_lt time.month_le (by decide)
      apply (congrArg (Option.bind · _) (readDigits_twoDigits bound _)).trans
      exact if_pos ⟨time.month_pos, time.month_le⟩
  | day =>
      have bound : time.day < 100 := Nat.lt_trans time.day_lt (by decide)
      apply (congrArg (Option.bind · _) (readPadded_twoDigits bound _)).trans
      exact if_pos ⟨time.day_pos, Nat.le_of_lt_succ time.day_lt⟩
  | paddedDay =>
      cases layout with
      | nil => contradiction
      | cons next layout =>
          obtain rfl : next = .blank := of_decide_eq_true ok
          have read := (time.readPadded_day zone (time.written_blank_head zone layout)).1
          apply (congrArg (Option.bind · _) read).trans
          exact if_pos ⟨time.day_pos, Nat.le_of_lt_succ time.day_lt⟩
  | hour =>
      have bound := time.hour_lt
      apply (congrArg (Option.bind · _) (readPadded_twoDigits (by omega) _)).trans
      exact if_pos (by omega)
  | minute =>
      have bound := time.minute_lt
      apply (congrArg (Option.bind · _) (readDigits_twoDigits (by omega) _)).trans
      exact if_pos (by omega)
  | second =>
      have bound := time.second_lt
      apply (congrArg (Option.bind · _) (readDigits_twoDigits (by omega) _)).trans
      exact if_pos (by omega)
  | year =>
      have ends : ∀ char ∈ (time.written zone layout).head?, isDigit char = false := by
        cases layout with
        | nil => contradiction
        | cons next layout =>
            cases next with
            | char mark =>
                rintro char head
                obtain rfl : mark = char := Option.some.inj head
                simpa [followed] using ok
            | blank => exact time.written_blank_head zone layout
            | _ => simp [followed] at ok
      exact congrArg (Option.map _) (readYear_yearText time.year ends)
  | zone =>
      obtain rfl : layout = [] := List.isEmpty_iff.mp (by cases layout <;> exact ok)
      have text : time.writeDirective zone .zone ++ time.written zone [] = zone.toList :=
        List.append_nil _
      have read : readDirective .zone zone.toList fields =
          some ([], time.set zone fields .zone) := by
        simp only [readDirective, zoneReads.reads, Option.map_some, List.drop_length,
          List.take_length]
        rfl
      rw [text, read]
      rfl
  | blank => rfl
  | char mark => exact if_pos rfl

/-- The text of a directive other than a day of the month and a blank begins
with something else than white space. -/
theorem writeDirective_visible {directive : Directive} (zoneReads : ReadableZone zone)
    (ok : followed .blank [directive] = true) (notDay : directive ≠ .paddedDay) :
    ∃ char rest, time.writeDirective zone directive = char :: rest ∧ isWhite char = false := by
  have pairVisible : ∀ value < 100, ∃ char rest, twoDigits value = char :: rest ∧
      isWhite char = false := fun value bound =>
    ⟨_, _, rfl, isWhite_of_isDigit (twoDigits_isDigit bound (List.mem_cons_self ..))⟩
  cases directive with
  | weekdayName =>
      have table : ∀ index : Fin 7, ∃ char rest,
          (shortDays.getD index "").toList = char :: rest ∧ isWhite char = false := by
        intro index
        match index with
        | 0 | 1 | 2 | 3 | 4 | 5 | 6 => exact ⟨_, _, rfl, rfl⟩
      exact table ⟨_, time.wday_index_lt⟩
  | monthName =>
      have table : ∀ index : Fin 12, ∃ char rest,
          (shortMonths.getD index "").toList = char :: rest ∧ isWhite char = false := by
        intro index
        match index with
        | 0 | 1 | 2 | 3 | 4 | 5 | 6 | 7 | 8 | 9 | 10 | 11 => exact ⟨_, _, rfl, rfl⟩
      have low := time.month_pos
      have high := time.month_le
      exact table ⟨time.month - 1, by omega⟩
  | month => exact pairVisible _ (Nat.lt_of_le_of_lt time.month_le (by decide))
  | day => exact pairVisible _ (Nat.lt_trans time.day_lt (by decide))
  | hour => exact pairVisible _ (Nat.lt_trans time.hour_lt (by decide))
  | minute => exact pairVisible _ (Nat.lt_trans time.minute_lt (by decide))
  | second => exact pairVisible _ (Nat.lt_trans time.second_lt (by decide))
  | year =>
      have text : time.writeDirective zone .year = padded 4 time.year := rfl
      rw [text]
      cases digits : padded 4 time.year with
      | nil => exact absurd digits (padded_ne_nil _ _)
      | cons char rest =>
          exact ⟨char, rest, rfl,
            isWhite_of_isDigit (padded_isDigit (digits ▸ List.mem_cons_self ..))⟩
  | zone =>
      have visible := zoneReads.visible
      have reads := zoneReads.reads
      show ∃ char rest, zone.toList = char :: rest ∧ _
      cases text : zone.toList with
      | nil =>
          rw [text] at reads
          exact absurd reads (by decide)
      | cons char rest => exact ⟨char, rest, rfl, visible char (by rw [text]; rfl)⟩
  | char mark => exact ⟨mark, [], rfl, by simpa [followed] using ok⟩
  | paddedDay => contradiction
  | blank => contradiction

/-- White space that is skipped before a directive makes no difference to it. -/
theorem readDirective_trimmed {directive : Directive} {layout : List Directive}
    (zoneReads : ReadableZone zone) (afterBlank : followed .blank [directive] = true)
    (ok : followed directive layout = true) (fields : Fields) :
    readDirective directive ((time.written zone (directive :: layout)).dropWhile isWhite) fields =
      readDirective directive (time.written zone (directive :: layout)) fields := by
  by_cases isDay : directive = .paddedDay
  · subst isDay
    cases layout with
    | nil => contradiction
    | cons next layout =>
        obtain rfl : next = .blank := of_decide_eq_true ok
        have read := time.readPadded_day zone (time.written_blank_head zone layout)
        exact congrArg (Option.bind · _) (read.2.trans read.1.symm)
  · obtain ⟨char, rest, text, visible⟩ :=
      time.writeDirective_visible zone zoneReads afterBlank isDay
    rw [written_cons, text, List.cons_append, dropWhile_visible visible]

/-- Two layouts that begin alike read the text of one of them alike up to where
they part, also if the blanks before it were skipped. -/
theorem readLayout_shared (zoneReads : ReadableZone zone) (layout other : List Directive) :
    ∀ {first : List Directive}, readable (first ++ layout) = true →
      first.getLast? ≠ some .blank → ∀ fields : Fields,
      readLayout (first ++ other) (time.written zone (first ++ layout)) fields =
          readLayout other (time.written zone layout) (first.foldl (time.set zone) fields) ∧
        (first ≠ [] → followed .blank (first ++ layout) = true →
          readLayout (first ++ other) ((time.written zone (first ++ layout)).dropWhile isWhite)
              fields =
            readLayout other (time.written zone layout) (first.foldl (time.set zone) fields))
  | [], _, _, fields => ⟨rfl, fun nonempty => absurd rfl nonempty⟩
  | directive :: first, ok, ends, fields => by
      rw [List.cons_append, readable, Bool.and_eq_true] at ok
      obtain ⟨here, rest⟩ := ok
      have endsLater : first.getLast? ≠ some .blank := by
        cases first with
        | nil => simp
        | cons next first => simpa only [List.getLast?_cons_cons] using ends
      have later :=
        readLayout_shared zoneReads layout other rest endsLater (time.set zone fields directive)
      have read : readLayout (directive :: first ++ other)
            (time.written zone (directive :: first ++ layout)) fields =
          readLayout other (time.written zone layout)
            ((directive :: first).foldl (time.set zone) fields) := by
        rw [List.cons_append, List.cons_append, readLayout,
          time.readDirective_written zone zoneReads here fields, Option.bind_some]
        by_cases isBlank : directive = .blank
        · subst isBlank
          refine later.2 ?_ here
          rintro rfl
          exact ends rfl
        · simp only [if_neg isBlank]
          exact later.1
      refine ⟨read, fun _ afterBlank => ?_⟩
      have one : followed .blank [directive] = true := by
        cases directive <;> exact afterBlank
      rw [← read, List.cons_append, List.cons_append, readLayout, readLayout,
        time.readDirective_trimmed zone zoneReads one here fields]

/-- A readable layout is read back. -/
theorem readLayout_write (zoneReads : ReadableZone zone) {layout : List Directive}
    (ok : readable layout = true) (ends : layout.getLast? ≠ some .blank) (fields : Fields) :
    readLayout layout (time.write zone layout).toList fields =
      some (layout.foldl (time.set zone) fields) := by
  have padded : readable (layout ++ []) = true := by rwa [List.append_nil]
  have whole := (time.readLayout_shared zone zoneReads [] [] padded ends fields).1
  rw [List.append_nil] at whole
  rw [write, String.toList_ofList]
  exact whole

/-! ## Layouts that do not read a text -/

/-- A name does not begin with a digit. -/
theorem readName_digit {names : List String} {char : Char} {rest : List Char}
    (letters : ∀ name ∈ names, ∀ digit : Fin 10,
      name.toList.head? ≠ some (Char.ofNat (48 + digit)) ∧ name ≠ "")
    (digit : isDigit char = true) : readName names (char :: rest) = none := by
  obtain ⟨bound, shape⟩ := digit_char_eq digit
  have lower : char.toLower = char := by
    have table : ∀ value : Fin 10, (Char.ofNat (48 + value)).toLower = Char.ofNat (48 + value) := by
      decide
    rw [shape]
    exact table ⟨_, bound⟩
  unfold readName
  rw [Option.map_eq_none_iff, List.find?_eq_none]
  intro entry member leads
  have named : entry.1 ∈ names := List.fst_mem_of_mem_zipIdx member
  obtain ⟨notDigit, nonempty⟩ := letters _ named ⟨_, bound⟩
  cases text : entry.1.toList with
  | nil => exact nonempty (String.toList_eq_nil_iff.mp text)
  | cons first others =>
      rw [text, List.map_cons, lower] at leads
      simp only [List.isPrefixOf, Bool.and_eq_true, beq_iff_eq] at leads
      rw [text, leads.1] at notDigit
      exact notDigit (congrArg some shape)

/-- A day of the month begins with a digit, after the blanks are skipped. -/
theorem written_day_trimmed (layout : List Directive) :
    ∃ char rest, (time.written zone (.paddedDay :: layout)).dropWhile isWhite = char :: rest ∧
      isDigit char = true := by
  have day : time.writeDirective zone .paddedDay =
      if time.day < 10 then [' ', Nat.digitChar time.day] else twoDigits time.day := rfl
  rw [written_cons, day]
  by_cases short : time.day < 10
  · have table : ∀ digit : Fin 10, isDigit (Nat.digitChar digit) = true := by decide
    have digit := table ⟨time.day, short⟩
    rw [if_pos short]
    refine ⟨Nat.digitChar time.day, time.written zone layout, ?_, digit⟩
    rw [List.cons_append, List.dropWhile_cons_of_pos (by decide), List.cons_append,
      dropWhile_visible (isWhite_of_isDigit digit), List.nil_append]
  · have digit := twoDigits_isDigit (Nat.lt_trans time.day_lt (by decide)) (List.mem_cons_self ..)
    rw [if_neg short]
    exact ⟨_, _, dropWhile_visible (isWhite_of_isDigit digit) _, digit⟩

/-- A year begins with three digits. -/
theorem written_year (layout : List Directive) :
    ∃ a b c rest, time.written zone (.year :: layout) = a :: b :: c :: rest ∧
      isDigit a = true ∧ isDigit b = true ∧ isDigit c = true := by
  have digits : ∀ char ∈ padded 4 time.year, isDigit char = true := fun char => padded_isDigit
  have width : 4 ≤ (padded 4 time.year).length := by
    rw [padded, List.length_append, List.length_replicate]
    omega
  have text : time.written zone (.year :: layout) =
      padded 4 time.year ++ time.written zone layout := rfl
  rw [text]
  match padded 4 time.year, width, digits with
  | a :: b :: c :: more, _, digits =>
      exact ⟨a, b, c, more ++ time.written zone layout, rfl, digits a (by simp), digits b (by simp),
        digits c (by simp)⟩

/-- A weekday is not read where a year stands. -/
theorem readLayout_weekday_year (layout other : List Directive) (fields : Fields) :
    readLayout (.weekdayName :: other) (time.written zone (.year :: layout)) fields = none := by
  obtain ⟨a, b, c, rest, text, digit, _⟩ := time.written_year zone layout
  have noName : readName dayNames (a :: b :: c :: rest) = none := readName_digit (by decide) digit
  rw [text]
  refine readLayout_of_none ?_ other
  rw [readDirective, noName, Option.map_none]

/-- A month is not read where a day stands. -/
theorem readLayout_month_day (layout other : List Directive) (fields : Fields) :
    readLayout (.blank :: .monthName :: other) (time.written zone (.blank :: .paddedDay :: layout))
      fields = none := by
  obtain ⟨char, rest, text, digit⟩ := time.written_day_trimmed zone layout
  have noName : readName monthNames (char :: rest) = none := readName_digit (by decide) digit
  have skipped : readDirective .blank (time.written zone (.blank :: .paddedDay :: layout)) fields =
      some (char :: rest, fields) := congrArg (fun left => some (left, fields)) text
  rw [readLayout_of_some skipped]
  refine readLayout_of_none ?_ other
  rw [readDirective, noName, Option.map_none]

/-- A time of day is not read where a year stands. -/
theorem readLayout_hour_year (layout other : List Directive) (fields : Fields) :
    readLayout (.blank :: .hour :: .char ':' :: other)
      (time.written zone (.blank :: .year :: layout)) fields = none := by
  obtain ⟨a, b, c, rest, text, first, second, third⟩ := time.written_year zone layout
  have skipped : readDirective .blank (time.written zone (.blank :: .year :: layout)) fields =
      some (a :: b :: c :: rest, fields) := by
    have trimmed : (a :: b :: c :: rest).dropWhile isWhite = a :: b :: c :: rest :=
      dropWhile_visible (isWhite_of_isDigit first) _
    rw [← text] at trimmed
    exact congrArg (fun left => some (left, fields)) (trimmed.trans text)
  have notColon : c ≠ ':' := by
    rintro rfl
    exact absurd third (by decide)
  have areDigits : ∀ char ∈ [a, b], isDigit char = true := by
    simp [first, second]
  have pair : readPadded (a :: b :: c :: rest) =
      some (Nat.ofDigitChars 10 [a, b] 0, c :: rest) := by
    unfold readPadded
    split
    · rename_i shape
      rw [(List.cons.inj shape).1] at first
      exact absurd first (by decide)
    · exact readDigits_digits (List.cons_ne_nil a [b]) areDigits (Nat.le_refl 2) (Or.inl rfl)
  rw [readLayout_of_some skipped]
  by_cases small : Nat.ofDigitChars 10 [a, b] 0 ≤ 24
  · have hour : readDirective .hour (a :: b :: c :: rest) fields =
        some (c :: rest, { fields with hour := Nat.ofDigitChars 10 [a, b] 0 }) := by
      apply (congrArg (Option.bind · _) pair).trans
      exact if_pos small
    rw [readLayout_of_some hour]
    refine readLayout_of_none ?_ other
    exact if_neg fun head => notColon (Option.some.inj head)
  · refine readLayout_of_none ?_ _
    apply (congrArg (Option.bind · _) pair).trans
    exact if_neg small

end CivilTime

/-! ## The text of an instant -/

theorem month_bounds (t : Int) : 1 ≤ month t ∧ month t ≤ 12 := by
  have low : 0 ≤ (t / usecPerDay + epochShift) % eraDays := Int.emod_nonneg _ (by decide)
  have high : (t / usecPerDay + epochShift) % eraDays < eraDays := Int.emod_lt_of_pos _ (by decide)
  have bounds := yearOfEra_bounds low high
  simp only [month, date, dateOfDays]
  generalize yearOfEra ((t / usecPerDay + epochShift) % eraDays) = position at *
  split <;> omega

theorem day_bounds (t : Int) : 1 ≤ day t ∧ day t ≤ 31 := by
  have low : 0 ≤ (t / usecPerDay + epochShift) % eraDays := Int.emod_nonneg _ (by decide)
  have high : (t / usecPerDay + epochShift) % eraDays < eraDays := Int.emod_lt_of_pos _ (by decide)
  have bounds := yearOfEra_bounds low high
  simp only [day, date, dateOfDays]
  generalize yearOfEra ((t / usecPerDay + epochShift) % eraDays) = position at *
  omega

theorem second_bounds (t : Int) : 0 ≤ second t ∧ second t < 60 := by
  simp only [second, usecPerMinute]
  omega

theorem yearText_injective : Function.Injective yearText := by
  intro first second equal
  have negative : ∀ year : Int, ('-' ∈ (yearText year).head?) ↔ year < 0 := by
    intro year
    unfold yearText
    by_cases before : year < 0
    · simp [before]
    · rw [if_neg before, List.nil_append]
      refine ⟨fun head => ?_, fun now => absurd now before⟩
      exact absurd (padded_isDigit (List.mem_of_mem_head? head)) (by decide)
  have signs : first < 0 ↔ second < 0 := by
    rw [← negative first, ← negative second, equal]
  have digits : padded 4 first.natAbs = padded 4 second.natAbs := by
    unfold yearText at equal
    by_cases before : first < 0
    · rw [if_pos before, if_pos (signs.mp before)] at equal
      exact List.append_cancel_left equal
    · rw [if_neg before, if_neg (fun now => before (signs.mpr now))] at equal
      exact List.append_cancel_left equal
  have sizes : first.natAbs = second.natAbs := by
    rw [← ofDigitChars_padded 4 first.natAbs, digits, ofDigitChars_padded]
  omega

/-- Whole seconds have different texts. -/
theorem iso8601_injective {t u : Int} (whole : t % 1000000 = 0) (otherWhole : u % 1000000 = 0)
    (equal : iso8601 t = iso8601 u) : t = u := by
  have texts : yearText (year t) ++ afterYear t = yearText (year u) ++ afterYear u := by
    have lists := congrArg String.toList equal
    simpa only [iso8601, String.toList_ofList] using lists
  obtain ⟨years, rest⟩ := List.append_inj' texts rfl
  simp only [afterYear, List.cons_append, List.cons.injEq, true_and, List.append_assoc] at rest
  have pair : ∀ {m n : Int} {more other : List Char}, 0 ≤ m ∧ m < 100 → 0 ≤ n ∧ n < 100 →
      twoDigits m.toNat ++ more = twoDigits n.toNat ++ other → m = n ∧ more = other := by
    intro m n more other mBound nBound same
    obtain ⟨digits, left⟩ := List.append_inj same rfl
    have value := twoDigits_injective (by omega) (by omega) digits
    exact ⟨by omega, left⟩
  have monthT := month_bounds t
  have monthU := month_bounds u
  have dayT := day_bounds t
  have dayU := day_bounds u
  have hourT := hour_bounds t
  have hourU := hour_bounds u
  have minuteT := minute_bounds t
  have minuteU := minute_bounds u
  have secondT := second_bounds t
  have secondU := second_bounds u
  obtain ⟨months, rest⟩ := pair (by omega) (by omega) rest
  obtain ⟨days, rest⟩ := pair (by omega) (by omega) (List.cons.inj rest).2
  obtain ⟨hours, rest⟩ := pair (by omega) (by omega) (List.cons.inj rest).2
  obtain ⟨minutes, rest⟩ := pair (by omega) (by omega) (List.cons.inj rest).2
  obtain ⟨seconds, _⟩ := pair (by omega) (by omega) (List.cons.inj rest).2
  have sameMinute : SameMinute t u :=
    ⟨yearText_injective years, months, days, hours, minutes⟩
  rw [sameMinute_iff] at sameMinute
  simp only [minuteIndex, second, usecPerMinute] at sameMinute seconds
  omega

end MultipassWebui.Calendar
