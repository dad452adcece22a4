import MultipassWebui.Encoding.Base64

/-!
# Messages to the browser

What the channel and the reader thread send to a browser, and what the browser
does with it: a scrollback message resets the terminal, an output message
appends to it.  Both carry padded Base64, which the browser decodes with its
forgiving decoder.
-/

namespace MultipassWebui.Terminals

open MultipassWebui.Encoding

inductive MessageType where
  | scrollback
  | output
  deriving DecidableEq, Repr

structure Message where
  type : MessageType
  data : List Char
  deriving DecidableEq, Repr

/-- `{ type: "output", data: encoded }` of `broadcast_output` -/
def outputMessage (chunk : Bytes) : Message := ⟨.output, Base64.encode chunk⟩

/-- `{ type: "scrollback", data: … }` of `subscribed` -/
def scrollbackMessage (scrollback : Bytes) : Message := ⟨.scrollback, Base64.encode scrollback⟩

/-- The bytes that a list of messages carries. -/
def carriedBytes (messages : List Message) : Bytes :=
  messages.flatMap fun message => (Base64.strictDecode message.data).getD []

@[simp]
theorem carriedBytes_outputMessages (chunks : List Bytes) :
    carriedBytes (chunks.map outputMessage) = chunks.flatten := by
  simp [carriedBytes, outputMessage, List.flatMap_map, Base64.strictDecode_encode]

/-- The bytes written to the browser's terminal since its last reset. -/
structure Browser where
  shown : Bytes
  deriving DecidableEq, Repr

namespace Browser

/-- `handleMessage`; `atob` raises on text that is not Base64. -/
def handleMessage (browser : Browser) (message : Message) : Browser :=
  match Base64.forgivingDecode message.data with
  | none => browser
  | some bytes =>
      match message.type with
      | .scrollback => ⟨bytes⟩
      | .output => ⟨browser.shown ++ bytes⟩

@[simp]
theorem handleMessage_output (browser : Browser) (chunk : Bytes) :
    browser.handleMessage (outputMessage chunk) = ⟨browser.shown ++ chunk⟩ := by
  simp only [handleMessage, outputMessage, Base64.forgivingDecode_encode]

@[simp]
theorem handleMessage_scrollback (browser : Browser) (scrollback : Bytes) :
    browser.handleMessage (scrollbackMessage scrollback) = ⟨scrollback⟩ := by
  simp only [handleMessage, scrollbackMessage, Base64.forgivingDecode_encode]

end Browser

end MultipassWebui.Terminals
