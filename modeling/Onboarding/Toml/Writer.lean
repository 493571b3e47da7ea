import Onboarding.Toml.Statement
/-!
# TOML layout — how values and statements are written

A list of two or more items has a line for each, and a table between braces one line for
all. `Statement.writeAll` puts a blank line before every header but one at the very
front.
-/

namespace Onboarding

namespace Toml

/-- A part of a key: without quotes where it can stand without. -/
def writeKeyPart (s : String) : List Char :=
  let cs := s.toList
  if !cs.isEmpty && cs.all isBareChar then cs else writeAs (keyForm cs) cs

/-- A key with its parts between dots. -/
def writeKey (path : List String) : List Char := ['.'].intercalate (path.map writeKeyPart)

/-- The items of an array: one on the same line, and more on a line each. -/
def writeItems : List (List Char) → List Char
  | [] => []
  | [item] => item
  | items => items.flatMap (fun item => "\n    ".toList ++ item ++ [',']) ++ ['\n']

/-- The members of a table on one line. -/
def writeMembers : List (List Char) → List Char
  | [] => []
  | members => [' '] ++ ", ".toList.intercalate members ++ [' ']

mutual

/-- A value. -/
def write : Toml → List Char
  | .text s => writeText s
  | .integer n => (toString n).toList
  | .float spelling => spelling.toList
  | .bool b => (if b then "true" else "false").toList
  | .date spelling => spelling.toList
  | .array items => ['['] ++ writeItems (writeAllItems items) ++ [']']
  | .table members => ['\x7b'] ++ writeMembers (writeAllMembers members) ++ ['\x7d']

/-- Each item of an array. -/
def writeAllItems : List Toml → List (List Char)
  | [] => []
  | v :: r => write v :: writeAllItems r

/-- Each member of a table. -/
def writeAllMembers : List (String × Toml) → List (List Char)
  | [] => []
  | (k, v) :: r => (writeKeyPart k ++ " = ".toList ++ write v) :: writeAllMembers r

end

namespace Statement

/-- A statement on its line. -/
def write : Statement → List Char
  | .table path => ['['] ++ writeKey path ++ [']', '\n']
  | .item path => "[[".toList ++ writeKey path ++ "]]\n".toList
  | .assign path v => writeKey path ++ " = ".toList ++ v.write ++ ['\n']

/-- Whether a statement starts a table. -/
def isHeader : Statement → Bool
  | .assign _ _ => false
  | _ => true

/-- Statements behind others, each header behind a blank line. -/
def writeRest (ss : List Statement) : List Char :=
  ss.flatMap fun s => (if s.isHeader then ['\n'] else []) ++ s.write

/-- The text of a file. -/
def writeAll : List Statement → String
  | [] => ""
  | s :: rest => String.ofList (s.write ++ writeRest rest)

end Statement

end Toml

end Onboarding
