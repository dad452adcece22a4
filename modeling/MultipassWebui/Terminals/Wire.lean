import MultipassWebui.Encoding.Json
import MultipassWebui.Terminals.Session
import MultipassWebui.Text.Strings

/-!
# The wire protocol of terminal input

The browser sends typed text and window sizes as bytes in Base64 over one
channel, and the server tells them apart by the first byte and the length.
Window sizes are always understood.  Typed text is taken for a window size
precisely if it has at least five bytes and begins with the prefix byte, and it
is never sent if it has more bytes than the engine of the browser passes as
arguments.  A payload whose data is not a text at all raises.
-/

namespace MultipassWebui.Terminals

open MultipassWebui.Effect
open MultipassWebui.Encoding

/-! ## The browser -/

/-- The engine that runs the page.  A call with more arguments than it passes is a
`RangeError`; the limit differs between engines, and the five bytes of a window
size are within it. -/
structure Engine where
  argumentLimit : Nat
  five_le : 5 ≤ argumentLimit

/-- What the scripts of the page raise. -/
inductive JsError where
  | rangeError
  deriving DecidableEq, Repr

/-- The message for some bytes, with the action that `perform` adds. -/
def inputMessage (bytes : Bytes) : Json :=
  .object [("data", .string (String.ofList (Base64.encode bytes))), ("action", .string "receive")]

/-- `sendBytes`; each byte is an argument of `String.fromCharCode(...bytes)`. -/
def sendBytes (engine : Engine) (bytes : Bytes) : Except JsError Json :=
  if bytes.length ≤ engine.argumentLimit then .ok (inputMessage bytes) else .error .rangeError

/-- `new TextEncoder().encode(data)` -/
def encodeText (text : String) : Bytes := Text.utf8Bytes text

/-- The handler of `onData`. -/
def sendText (engine : Engine) (text : String) : Except JsError Json :=
  sendBytes engine (encodeText text)

/-- The message of `sendResize`. -/
def resizeBytes (cols rows : Nat) : Bytes :=
  [0x01, UInt8.ofNat (cols / 256 % 256), UInt8.ofNat (cols % 256),
    UInt8.ofNat (rows / 256 % 256), UInt8.ofNat (rows % 256)]

/-- `sendResize` -/
def sendResize (engine : Engine) (cols rows : Nat) : Except JsError Json :=
  sendBytes engine (resizeBytes cols rows)

/-! ## The channel -/

namespace TerminalChannel

/-- `payload.fetch("data")` -/
def fetchData (payload : Json) : Exec Session RubyError Json :=
  match payload with
  | .object _ =>
      match payload.field? "data" with
      | some data => pure data
      | none => Exec.raise (.keyError "key not found: \"data\"")
  | .array _ => Exec.raise (.typeError "no implicit conversion of String into Integer")
  | _ => Exec.raise (.noMethodError "fetch")

/-- `Base64.strict_decode64(data)`, whose result is binary. -/
def strictDecode64 : Json → Exec Session RubyError Bytes
  | .string text =>
      match Base64.strictDecode text.toList with
      | some bytes => pure bytes
      | none => Exec.raise (.argumentError "invalid base64")
  | _ => Exec.raise (.noMethodError "unpack1")

/-- `receive` on a channel that has a session. -/
def receiveOn (payload : Json) : Exec Session RubyError PUnit :=
  Exec.rescue
    (do
      let data ← fetchData payload
      let decoded ← strictDecode64 data
      Session.write decoded true)
    fun error => if error.isArgumentError || error.isKeyError then some (pure ⟨⟩) else none

/-- `receive`; the state is `@session`. -/
def receive (payload : Json) : Exec (Option Session) RubyError PUnit := fun session =>
  match session with
  | none => (.ok ⟨⟩, none)
  | some session => ((receiveOn payload session).1, some (receiveOn payload session).2)

/-- The data of a payload is a strict Base64 text, the encoding of some bytes. -/
def StrictData (payload : Json) : Prop :=
  ∃ text bytes, payload.field? "data" = some (.string text) ∧ text.toList = Base64.encode bytes

/-- The payload is an object whose data is absent or a text. -/
def TextOrAbsent (payload : Json) : Prop :=
  ∃ fields, payload = .object fields ∧
    ∀ data ∈ payload.field? "data", ∃ text, data = .string text

section Receive

variable {session : Session} {payload : Json}

theorem fetchData_of_field {data : Json} (found : payload.field? "data" = some data) :
    fetchData payload session = (.ok data, session) := by
  cases payload with
  | object fields => simp only [fetchData, found, Exec.pure_apply]
  | _ => cases found

theorem receiveOn_of_data {data : Json} (found : payload.field? "data" = some data) :
    receiveOn payload session =
      Exec.rescue
        (do
          let decoded ← strictDecode64 data
          Session.write decoded true)
        (fun error => if error.isArgumentError || error.isKeyError then some (pure ⟨⟩) else none)
        session := by
  rw [receiveOn, Exec.rescue, Exec.bind_ok (fetchData_of_field found)]
  rfl

/-- Strict Base64 data is decoded and written. -/
theorem receiveOn_of_strict {text : String} {bytes : Bytes}
    (found : payload.field? "data" = some (.string text))
    (decoded : Base64.strictDecode text.toList = some bytes) :
    receiveOn payload session = Session.write bytes true session := by
  have decode : strictDecode64 (.string text) session = (.ok bytes, session) := by
    simp only [strictDecode64, decoded, Exec.pure_apply]
  rw [receiveOn_of_data found, Exec.rescue, Exec.bind_ok decode]
  rcases Session.write_outcome session bytes true with returned | ⟨method, raised⟩
  · cases written : Session.write bytes true session with
    | mk outcome after =>
        rw [written] at returned
        cases returned
        rfl
  · cases written : Session.write bytes true session with
    | mk outcome after =>
        rw [written] at raised
        cases raised
        rfl

theorem field_inputMessage (bytes : Bytes) :
    (inputMessage bytes).field? "data" = some (.string (String.ofList (Base64.encode bytes))) :=
  rfl

theorem receiveOn_inputMessage (bytes : Bytes) :
    receiveOn (inputMessage bytes) session = Session.write bytes true session := by
  apply receiveOn_of_strict (field_inputMessage bytes)
  rw [String.toList_ofList]
  exact Base64.strictDecode_encode bytes

/-- What `receive` makes of an exception before the write. -/
theorem receiveOn_of_error {error : RubyError}
    (failed : fetchData payload session = (.error error, session) ∨
      ∃ data, payload.field? "data" = some data ∧
        strictDecode64 data session = (.error error, session)) :
    receiveOn payload session =
      if error.isArgumentError || error.isKeyError then (.ok ⟨⟩, session)
      else (.error error, session) := by
  rcases failed with fetched | ⟨data, found, decoded⟩
  · rw [receiveOn, Exec.rescue, Exec.bind_error fetched]
    dsimp only
    split_ifs <;> rfl
  · rw [receiveOn_of_data found, Exec.rescue, Exec.bind_error decoded]
    dsimp only
    split_ifs <;> rfl

/-- Data that is a text raises nothing. -/
theorem receiveOn_of_text {text : String} (found : payload.field? "data" = some (.string text))
    (notStrict : ¬ StrictData payload) : receiveOn payload session = (.ok ⟨⟩, session) := by
  have invalid : Base64.strictDecode text.toList = none := by
    cases decoded : Base64.strictDecode text.toList with
    | none => rfl
    | some bytes =>
        exact absurd ⟨text, bytes, found, Base64.strictDecode_eq_some_iff.mp decoded⟩ notStrict
  have failed : strictDecode64 (.string text) session =
      (.error (.argumentError "invalid base64"), session) := by
    simp only [strictDecode64, invalid, Exec.raise_apply]
  rw [receiveOn_of_error (Or.inr ⟨_, found, failed⟩)]
  rfl

/-- Data that is there and not a text raises. -/
theorem receiveOn_of_not_text {data : Json} (found : payload.field? "data" = some data)
    (notText : ∀ text, data ≠ .string text) :
    receiveOn payload session = (.error (.noMethodError "unpack1"), session) := by
  have failed : strictDecode64 data session = (.error (.noMethodError "unpack1"), session) := by
    cases data with
    | string text => exact absurd rfl (notText text)
    | _ => rfl
  rw [receiveOn_of_error (Or.inr ⟨data, found, failed⟩)]
  rfl

/-- A payload without `fetch`, or with one that wants an index, raises. -/
theorem receiveOn_of_not_object (session : Session)
    (notObject : ∀ fields, payload ≠ .object fields) :
    ∃ error, receiveOn payload session = (.error error, session) := by
  have failed : ∃ error, fetchData payload session = (.error error, session) ∧
      (error.isArgumentError || error.isKeyError) = false := by
    cases payload with
    | object fields => exact absurd rfl (notObject fields)
    | array items => exact ⟨_, rfl, rfl⟩
    | null => exact ⟨_, rfl, rfl⟩
    | bool value => exact ⟨_, rfl, rfl⟩
    | number value => exact ⟨_, rfl, rfl⟩
    | string text => exact ⟨_, rfl, rfl⟩
  rcases failed with ⟨error, fetched, passes⟩
  refine ⟨error, ?_⟩
  rw [receiveOn_of_error (Or.inl fetched), passes]
  rfl

theorem receiveOn_of_absent {fields : List (String × Json)}
    (absent : (Json.object fields).field? "data" = none) :
    receiveOn (.object fields) session = (.ok ⟨⟩, session) := by
  have failed : fetchData (.object fields) session =
      (.error (.keyError "key not found: \"data\""), session) := by
    simp only [fetchData, absent, Exec.raise_apply]
  rw [receiveOn_of_error (Or.inl failed)]
  rfl

/-- A payload that is not strict Base64 is dropped if it is an object whose
data is absent or a text, and raises otherwise. -/
theorem receiveOn_of_not_strict (notStrict : ¬ StrictData payload) :
    receiveOn payload session = (.ok ⟨⟩, session) ↔ TextOrAbsent payload := by
  constructor
  · intro returned
    by_cases isObject : ∃ fields, payload = .object fields
    · rcases isObject with ⟨fields, isObject⟩
      refine ⟨fields, isObject, ?_⟩
      intro data found
      by_contra notText
      rw [receiveOn_of_not_text found fun text equal => notText ⟨text, equal⟩] at returned
      cases returned
    · rcases receiveOn_of_not_object session fun fields equal => isObject ⟨fields, equal⟩ with
        ⟨error, raised⟩
      rw [raised] at returned
      cases returned
  · rintro ⟨fields, rfl, texts⟩
    cases found : (Json.object fields).field? "data" with
    | none => exact receiveOn_of_absent found
    | some data =>
        rcases texts data found with ⟨text, rfl⟩
        exact receiveOn_of_text found notStrict

/-- A payload that is not strict Base64 leaves the session alone. -/
theorem receiveOn_state (session : Session) (payload : Json) :
    (receiveOn payload session).2 = session ∨
      ∃ bytes, (receiveOn payload session).2 = (Session.write bytes true session).2 := by
  by_cases strict : StrictData payload
  · rcases strict with ⟨text, bytes, found, encoded⟩
    have decoded := Base64.strictDecode_eq_some_iff.mpr encoded
    exact Or.inr ⟨bytes, congrArg Prod.snd (receiveOn_of_strict found decoded)⟩
  · left
    by_cases text : TextOrAbsent payload
    · exact congrArg Prod.snd ((receiveOn_of_not_strict strict).mpr text)
    · by_cases isObject : ∃ fields, payload = .object fields
      · rcases isObject with ⟨fields, rfl⟩
        cases found : (Json.object fields).field? "data" with
        | none => exact congrArg Prod.snd (receiveOn_of_absent found)
        | some data =>
            have notText : ∀ text, data ≠ .string text := by
              rintro content rfl
              exact text ⟨fields, rfl, fun data isData => ⟨content, by
                rw [found] at isData
                exact (Option.mem_some_iff.mp isData).symm⟩⟩
            exact congrArg Prod.snd (receiveOn_of_not_text found notText)
      · rcases receiveOn_of_not_object session fun fields equal => isObject ⟨fields, equal⟩ with
          ⟨error, raised⟩
        exact congrArg Prod.snd raised

end Receive

end TerminalChannel

/-! ## The protocol -/

/-- What a browser can do to the wire: type or paste a text, report a size in
cells, or send any other payload. -/
inductive BrowserInput where
  | typed (text : String)
  | resized (cols rows : Nat)
  | payload (payload : Json)

/-- The server undoes the encoders of the browser and tolerates payloads that
are not theirs. -/
def Decodable (engine : Engine) (session : Session) : BrowserInput → Prop
  | .typed text => ∀ master, session.master = some master →
      ∃ message, sendText engine text = .ok message ∧
        TerminalChannel.receive message (some session) =
          (.ok ⟨⟩, some (session.withMaster
            { master with input := master.input ++ encodeText text }))
  | .resized cols rows => cols ≤ 65535 → rows ≤ 65535 → ∀ master, session.master = some master →
      ∃ message, sendResize engine cols rows = .ok message ∧
        TerminalChannel.receive message (some session) =
          (.ok ⟨⟩, some (session.withMaster { master with winsize := ⟨rows, cols⟩ }))
  | .payload payload => ¬ TerminalChannel.StrictData payload →
      TerminalChannel.receive payload (some session) = (.ok ⟨⟩, some session)

/-- Typed text has no more bytes than the engine passes and does not look like a
resize message, and a payload with data that is not strict Base64 is an object
whose data is absent or a text. -/
def Unmistakable (engine : Engine) : BrowserInput → Prop
  | .typed text => (encodeText text).length ≤ engine.argumentLimit ∧
      ¬ (5 ≤ (encodeText text).length ∧ (encodeText text).head? = some 0x01)
  | .resized _ _ => True
  | .payload payload => TerminalChannel.StrictData payload ∨ TerminalChannel.TextOrAbsent payload

theorem wordAt_resizeBytes {cols rows : Nat} (colsBound : cols ≤ 65535) (rowsBound : rows ≤ 65535) :
    Session.wordAt (resizeBytes cols rows) 1 = cols ∧
      Session.wordAt (resizeBytes cols rows) 3 = rows := by
  have word : ∀ value, value ≤ 65535 →
      (UInt8.ofNat (value / 256 % 256)).toNat * 256 + (UInt8.ofNat (value % 256)).toNat =
        value := by
    intro value bound
    simp only [UInt8.toNat_ofNat']
    omega
  exact ⟨word cols colsBound, word rows rowsBound⟩

theorem isResize_iff (data : Bytes) :
    Session.isResize data true = true ↔ 5 ≤ data.length ∧ data.head? = some 0x01 := by
  rw [Session.isResize, Bool.true_and, Bool.and_eq_true, decide_eq_true_iff, decide_eq_true_iff]
  rfl

theorem isResize_resizeBytes (cols rows : Nat) :
    Session.isResize (resizeBytes cols rows) true = true :=
  rfl

theorem receive_inputMessage (session : Session) (bytes : Bytes) :
    TerminalChannel.receive (inputMessage bytes) (some session) =
      ((Session.write bytes true session).1, some (Session.write bytes true session).2) := by
  rw [TerminalChannel.receive, TerminalChannel.receiveOn_inputMessage]

/-- What is sent is the message for the bytes, if they are few enough. -/
theorem sendBytes_eq_ok_iff {engine : Engine} {bytes : Bytes} {message : Json} :
    sendBytes engine bytes = .ok message ↔
      bytes.length ≤ engine.argumentLimit ∧ message = inputMessage bytes := by
  unfold sendBytes
  split_ifs with few
  · simp [few, eq_comm]
  · simp [few]

section Laws

variable {engine : Engine} {session : Session} {master : Master}

/-- Typed text is written unless there is too much of it or it is mistaken for a
window size. -/
theorem typed_decodable_iff (alive : session.closed = false)
    (isMaster : session.master = some master) (opened : master.descriptor = .opened)
    (text : String) :
    Decodable engine session (.typed text) ↔ Unmistakable engine (.typed text) := by
  constructor
  · intro decoded
    rcases decoded master isMaster with ⟨message, sent, written⟩
    rcases sendBytes_eq_ok_iff.mp sent with ⟨few, rfl⟩
    refine ⟨few, fun mistaken => ?_⟩
    rw [receive_inputMessage,
      Session.write_resize alive isMaster opened ((isResize_iff _).mpr mistaken)] at written
    simp only [Session.withMaster, Prod.mk.injEq, Option.some.injEq, Session.mk.injEq,
      Master.mk.injEq, true_and, and_true] at written
    have empty : encodeText text = [] := by simpa using written.2
    rw [empty] at mistaken
    exact absurd mistaken.1 (by decide)
  · rintro ⟨few, plain⟩ other otherMaster
    cases isMaster.symm.trans otherMaster
    have notResize : Session.isResize (encodeText text) true = false :=
      Bool.eq_false_iff.mpr fun resize => plain ((isResize_iff _).mp resize)
    refine ⟨_, sendBytes_eq_ok_iff.mpr ⟨few, rfl⟩, ?_⟩
    rw [receive_inputMessage, Session.write_plain alive isMaster opened notResize]

theorem resized_decodable (alive : session.closed = false)
    (isMaster : session.master = some master) (opened : master.descriptor = .opened)
    (cols rows : Nat) : Decodable engine session (.resized cols rows) := by
  intro colsBound rowsBound other otherMaster
  cases isMaster.symm.trans otherMaster
  refine ⟨_, sendBytes_eq_ok_iff.mpr ⟨engine.five_le, rfl⟩, ?_⟩
  rw [receive_inputMessage,
    Session.write_resize alive isMaster opened (isResize_resizeBytes cols rows),
    (wordAt_resizeBytes colsBound rowsBound).1, (wordAt_resizeBytes colsBound rowsBound).2]

theorem payload_decodable_iff (session : Session) (payload : Json) :
    Decodable engine session (.payload payload) ↔ Unmistakable engine (.payload payload) := by
  have receive_iff : TerminalChannel.receive payload (some session) = (.ok ⟨⟩, some session) ↔
      TerminalChannel.receiveOn payload session = (.ok ⟨⟩, session) := by
    simp [TerminalChannel.receive, Prod.ext_iff]
  constructor
  · intro decoded
    by_cases strict : TerminalChannel.StrictData payload
    · exact Or.inl strict
    · exact Or.inr ((TerminalChannel.receiveOn_of_not_strict strict).mp
        (receive_iff.mp (decoded strict)))
  · rintro unmistakable notStrict
    rcases unmistakable with strict | text
    · exact absurd strict notStrict
    · exact receive_iff.mpr ((TerminalChannel.receiveOn_of_not_strict notStrict).mpr text)

end Laws

/-- On an open session an input is decoded precisely if it is unmistakable. -/
theorem decodable_iff (engine : Engine) {session : Session} (isOpen : session.Open)
    (input : BrowserInput) : Decodable engine session input ↔ Unmistakable engine input := by
  rcases isOpen with ⟨alive, master, isMaster, opened⟩
  cases input with
  | typed text => exact typed_decodable_iff alive isMaster opened text
  | resized cols rows =>
      exact iff_of_true (resized_decodable alive isMaster opened cols rows) trivial
  | payload payload => exact payload_decodable_iff session payload

/-- A session that has just been started. -/
def startedSession : Session := (Session.new "web" "a1" 0).spawned

/-- An engine that passes no more arguments than two bytes count. -/
def pageEngine : Engine := ⟨65535, by decide⟩

theorem decodable_iff_command :
    Decodable pageEngine startedSession (.typed "ls -la\r") :=
  (decodable_iff pageEngine ⟨rfl, _, rfl, rfl⟩ _).mpr (by unfold Unmistakable; decide)

/-- A letter over and over. -/
def repeated (count : Nat) : String := String.ofList (List.replicate count 'x')

theorem length_encodeText_repeated (count : Nat) :
    (encodeText (repeated count)).length = count := by
  have one : (String.utf8EncodeChar 'x').length = 1 := rfl
  rw [encodeText, Text.utf8Bytes, repeated, String.toList_ofList, List.flatMap_replicate,
    List.length_flatten, List.map_replicate, List.sum_replicate_nat, one, Nat.mul_one]

/-- Pasted text that begins with the prefix byte resizes the terminal, text that is
too long is not sent, and a payload whose data is a number raises. -/
theorem pastedText_not_decodable :
    startedSession.Open ∧ ¬ Decodable pageEngine startedSession (.typed "\x01abcd") ∧
      ¬ Decodable pageEngine startedSession (.typed (repeated 65536)) ∧
      ¬ Decodable pageEngine startedSession (.payload (.object [("data", .number 7)])) := by
  have pasted : encodeText "\x01abcd" = [0x01, 0x61, 0x62, 0x63, 0x64] := by decide
  refine ⟨⟨rfl, _, rfl, rfl⟩, ?_, ?_, ?_⟩
  · intro decoded
    rcases decoded ⟨.opened, ⟨40, 120⟩, []⟩ rfl with ⟨message, sent, written⟩
    rcases sendBytes_eq_ok_iff.mp sent with ⟨_, rfl⟩
    rw [receive_inputMessage, pasted] at written
    exact absurd written (by decide)
  · intro decoded
    rcases decoded ⟨.opened, ⟨40, 120⟩, []⟩ rfl with ⟨message, sent, _⟩
    have few := (sendBytes_eq_ok_iff.mp sent).1
    rw [length_encodeText_repeated] at few
    exact absurd few (by decide)
  · intro decoded
    have notStrict : ¬ TerminalChannel.StrictData (.object [("data", .number 7)]) := by
      rintro ⟨text, bytes, found, _⟩
      simp [Json.field?] at found
    have returned := decoded notStrict
    have raised : TerminalChannel.receiveOn (.object [("data", .number 7)]) startedSession =
        (.error (.noMethodError "unpack1"), startedSession) :=
      TerminalChannel.receiveOn_of_not_text rfl (by intro text equal; cases equal)
    rw [TerminalChannel.receive, raised] at returned
    cases returned

end MultipassWebui.Terminals
