/-!
# TOML — the values of a configuration file

A file is a table. Numbers with a fraction, dates and times are well-formed values that
this service has no use for; they are kept as they were written.
-/

namespace Onboarding

/-- A value of a configuration file. -/
inductive Toml where
  | text (s : String)
  | integer (n : Int)
  | float (spelling : String)
  | bool (b : Bool)
  /-- A date, a time or both. -/
  | date (spelling : String)
  | array (items : List Toml)
  | table (members : List (String × Toml))
deriving Repr, Inhabited

namespace Toml

/-- The most containers that stand in one another, and the most parts of a key, are one
fewer than this. -/
def depthLimit : Nat := 80

/-- A blank inside a line. -/
def isBlankChar (c : Char) : Bool := c = ' ' || c = '\t'

/-- The rest of a line without the blanks at its front. -/
def skipBlanks (cs : List Char) : List Char := cs.dropWhile isBlankChar

/-- Characters that may stand in a comment or a text as they are: no controls but the
tab. -/
def isPlainChar (c : Char) : Bool := c = '\t' || (0x20 ≤ c.toNat && c.toNat ≠ 0x7F)

/-- What follows a line break. -/
def afterBreak? : List Char → Option (List Char)
  | '\n' :: r => some r
  | '\r' :: '\n' :: r => some r
  | _ => none

/-- What follows a comment: the line break and all behind it. -/
def afterComment (cs : List Char) : List Char := cs.dropWhile isPlainChar

/-- What follows the end of a line: blanks and a comment may stand before it. -/
def afterLine? (cs : List Char) : Option (List Char) :=
  let rest := match skipBlanks cs with
    | '#' :: r => afterComment r
    | r => r
  if rest.isEmpty then some [] else afterBreak? rest

end Toml

end Onboarding
