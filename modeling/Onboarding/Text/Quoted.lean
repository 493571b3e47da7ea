import Onboarding.Text.Blank
import Onboarding.Text.Hex
import Onboarding.Text.PrintableTable
/-!
# Quoted — a character or a text shown so that it can be told from any other

Between quotes, the quote itself, the backslash and the usual controls are
written as two characters; marks that would join their neighbour and characters
that print as nothing are written by number.
-/

namespace Onboarding

namespace Quoted

/-- The written form of one character between quotes of the kind `quote`. -/
def escapeChar (quote c : Char) : String :=
  if c = '\x00' then "\\0"
  else if c = '\t' then "\\t"
  else if c = '\r' then "\\r"
  else if c = '\n' then "\\n"
  else if c = '\\' then "\\\\"
  else if c = quote then String.ofList ['\\', c]
  else if inRanges extenderRanges c.toNat || inRanges unprintableRanges c.toNat then
    "\\u\x7b" ++ Hex.ofNat c.toNat ++ "\x7d"
  else c.toString

/-- A character between single quotes. -/
def char (c : Char) : String := "'" ++ escapeChar '\'' c ++ "'"

/-- A text between double quotes. -/
def text (s : String) : String :=
  "\"" ++ String.join (s.toList.map (escapeChar '"')) ++ "\""

end Quoted

end Onboarding
