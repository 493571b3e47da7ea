import Onboarding.Schema
import Onboarding.Text.Quoted
import Onboarding.Text.Split
/-!
# Log formats — lines for people or lines for machines
-/

namespace Onboarding

/-- The form of log lines. -/
inductive LogFormat where
  | human
  | json
deriving DecidableEq, Repr, Inhabited

namespace LogFormat

/-- The name of a form. -/
def name : LogFormat → String
  | human => "human"
  | json => "json"

/-- The form of a name, in any case. -/
def ofName? (text : String) : Option LogFormat :=
  match asciiLower text with
  | "human" => some human
  | "json" => some json
  | _ => none

/-- The wording for a text that names no form. -/
def unknownMessage (text : String) : String :=
  "unknown log format " ++ Quoted.text (asciiLower text) ++ " (expected human or json)"

/-- The place of a form in its schema. -/
def toFin : LogFormat → Fin 2
  | human => 0
  | json => 1

/-- The form at a place. -/
def ofFin : Fin 2 → LogFormat
  | 0 => human
  | 1 => json

/-- Forms are configured by name, in lower case. -/
def schema : Schema LogFormat :=
  .via (.choice ["human", "json"]) ofFin toFin (fun i => by revert i; decide)
    (fun f => by cases f <;> rfl)

end LogFormat

end Onboarding
