import Onboarding.Text.Hex
/-!
# JSON — values and how they are written

The values this service writes: natural numbers are its only numbers, and an
object keeps its members in the order given. `render` writes a value without
spaces; a text is escaped only where it has to be.
-/

namespace Onboarding

/-- A JSON value whose numbers are natural. -/
inductive Json where
  | null
  | bool (b : Bool)
  | number (n : Nat)
  | text (s : String)
  | array (items : List Json)
  | object (members : List (String × Json))
deriving Repr, Inhabited

namespace Json

/-- One character inside a quoted text. Quotes, backslashes and controls are
escaped, the common controls in their short forms. -/
def escapeChar (c : Char) : String :=
  if c = '"' then "\\\""
  else if c = '\\' then "\\\\"
  else if c = '\n' then "\\n"
  else if c = '\r' then "\\r"
  else if c = '\t' then "\\t"
  else if c = '\x08' then "\\b"
  else if c = '\x0c' then "\\f"
  else if c.toNat < 0x20 then
    "\\u00" ++ String.ofList [Hex.digit (c.toNat / 16), Hex.digit (c.toNat % 16)]
  else c.toString

/-- A text between quotes. -/
def quote (s : String) : String := "\"" ++ String.join (s.toList.map escapeChar) ++ "\""

mutual

/-- A value without spaces. -/
def render : Json → String
  | .null => "null"
  | .bool true => "true"
  | .bool false => "false"
  | .number n => toString n
  | .text s => quote s
  | .array items => "[" ++ renderItems items ++ "]"
  | .object members => "\x7b" ++ renderMembers members ++ "\x7d"

/-- Items with commas between them. -/
def renderItems : List Json → String
  | [] => ""
  | [v] => render v
  | v :: r => render v ++ "," ++ renderItems r

/-- Members with commas between them. -/
def renderMembers : List (String × Json) → String
  | [] => ""
  | [(k, v)] => quote k ++ ":" ++ render v
  | (k, v) :: r => quote k ++ ":" ++ render v ++ "," ++ renderMembers r

end

end Json

end Onboarding
