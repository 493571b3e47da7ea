import Onboarding.Json
import Onboarding.Log.Format
/-!
# Log lines — what happened, where, and how grave it is
-/

namespace Onboarding

/-- How grave an event is. -/
inductive LogLevel where
  | error
  | warn
  | info
  | debug
  | trace
deriving DecidableEq, Repr, Inhabited

namespace LogLevel

/-- The name of a level. -/
def name : LogLevel → String
  | error => "ERROR"
  | warn => "WARN"
  | info => "INFO"
  | debug => "DEBUG"
  | trace => "TRACE"

/-- How much is logged at a level: it includes all graver ones. -/
def rank : LogLevel → Nat
  | error => 1
  | warn => 2
  | info => 3
  | debug => 4
  | trace => 5

end LogLevel

/-- A value that a line mentions. -/
inductive LogValue where
  | text (s : String)
  | number (n : Nat)
  /-- A text that stands between quotes for people. -/
  | quoted (s : String)
deriving DecidableEq, Repr

/-- The wording of a value. -/
def LogValue.shown : LogValue → String
  | .text s => s
  | .number n => toString n
  | .quoted s => Quoted.text s

/-- An event that is logged. -/
structure LogLine where
  /-- The part of the program that the event comes from. -/
  target : String
  level : LogLevel
  message : String
  fields : List (String × LogValue) := []
deriving DecidableEq, Repr

namespace LogLine

/-- The line for people: the message and each field behind it. -/
def text (l : LogLine) : String :=
  l.message ++ String.join (l.fields.map fun f => " " ++ f.1 ++ "=" ++ f.2.shown)

/-- A value for machines. -/
def valueJson : LogValue → Json
  | .text s | .quoted s => .text s
  | .number n => .number n

/-- The fields for machines, with the message as one of them. -/
def fieldsJson (l : LogLine) : Json :=
  .object (("message", .text l.message) :: l.fields.map fun f => (f.1, valueJson f.2))

/-- A whole line in a format. -/
def render (format : LogFormat) (l : LogLine) : String :=
  match format with
  | .human => l.level.name ++ " " ++ l.target ++ ": " ++ l.text
  | .json =>
    (Json.object [("level", .text l.level.name), ("fields", l.fieldsJson),
      ("target", .text l.target)]).render

end LogLine

end Onboarding
