import Mathlib.Tactic.TypeStar

/-!
# Exceptions

The Ruby exceptions that the modelled code raises or rescues, with the class
relation that decides which `rescue` clause applies.  Every one of them is a
`StandardError`.
-/

namespace MultipassWebui.Effect

inductive RubyError where
  | argumentError (message : String)
  | keyError (message : String)
  | noMethodError (method : String)
  | typeError (message : String)
  | threadError (message : String)
  | ioError (message : String)
  | eofError
  /-- An `Errno` class. -/
  | systemCallError (errno : String)
  /-- `Multipass::NameValidator::ValidationError`; its message quotes the name. -/
  | validationError (name : String)
  /-- `Multipass::Client::CommandError` -/
  | commandError (message : String)
  | recordInvalid
  | recordNotFound
  | recordNotUnique (index : String)
  /-- Any other `StandardError`, such as a failing broadcast. -/
  | standardError (message : String)
  deriving DecidableEq, Repr

namespace RubyError

/-- `rescue SystemCallError` -/
def isSystemCallError : RubyError → Bool
  | systemCallError _ => true
  | _ => false

/-- `rescue IOError`, of which `EOFError` is a subclass. -/
def isIoError : RubyError → Bool
  | ioError _ => true
  | eofError => true
  | _ => false

/-- The message of an `IOError`. -/
def ioMessage : RubyError → String
  | ioError message => message
  | eofError => "end of file reached"
  | _ => ""

/-- `rescue ArgumentError` -/
def isArgumentError : RubyError → Bool
  | argumentError _ => true
  | _ => false

/-- `rescue KeyError` -/
def isKeyError : RubyError → Bool
  | keyError _ => true
  | _ => false

/-- `rescue Multipass::Client::CommandError` -/
def isCommandError : RubyError → Bool
  | commandError _ => true
  | _ => false

/-- `rescue ActiveRecord::RecordInvalid` -/
def isRecordInvalid : RubyError → Bool
  | recordInvalid => true
  | _ => false

end RubyError

end MultipassWebui.Effect
