import Onboarding.Text.Hex
import Onboarding.Toml
/-!
# TOML texts — the four forms between quotes

Double quotes read escapes and single quotes do not; three quotes in a row hold several
lines. The writer takes the first form in which a text can stand as it is: one line in
double quotes, one line in single quotes, several lines in double quotes, several in
single quotes. A text that fits none of them is written with escapes.
-/

namespace Onboarding

namespace Toml

/-- A form that a text is written in. -/
structure TextForm where
  quote : Char
  multiline : Bool
deriving DecidableEq, Repr

namespace TextForm

/-- One line with escapes. -/
def basic : TextForm := ⟨'"', false⟩
/-- One line without escapes. -/
def literal : TextForm := ⟨'\'', false⟩
/-- Several lines with escapes. -/
def basicLines : TextForm := ⟨'"', true⟩
/-- Several lines without escapes. -/
def literalLines : TextForm := ⟨'\'', true⟩

/-- Whether a backslash starts an escape. -/
def hasEscapes (f : TextForm) : Bool := f.quote = '"'

/-- The quotes on either side. -/
def delimiter (f : TextForm) : List Char := List.replicate (if f.multiline then 3 else 1) f.quote

end TextForm

/-! ## Reading -/

/-- The character with a number, if there is one. -/
def charOf? (n : Nat) : Option Char :=
  if n < 0xD800 || (0xDFFF < n && n < 0x110000) then some (Char.ofNat n) else none

/-- The character that a number of digits spell, and what follows them. -/
def numbered? (digits : Nat) (cs : List Char) : Option (Char × List Char) :=
  let ds := cs.take digits
  if ds.length < digits then none
  else do
    let n ← ds.foldlM (fun n d => (Hex.value d).map (16 * n + ·)) 0
    return (← charOf? n, cs.drop digits)

/-- The character of an escape from behind its backslash, and what follows. -/
def escape? : List Char → Option (Char × List Char)
  | 'b' :: r => some ('\x08', r)
  | 't' :: r => some ('\t', r)
  | 'n' :: r => some ('\n', r)
  | 'f' :: r => some ('\x0c', r)
  | 'r' :: r => some ('\r', r)
  | '"' :: r => some ('"', r)
  | '\\' :: r => some ('\\', r)
  | 'u' :: r => numbered? 4 r
  | 'U' :: r => numbered? 8 r
  | _ => none

/-- Text without the blanks and line breaks at its front. -/
def skipLines : List Char → List Char
  | ' ' :: r => skipLines r
  | '\t' :: r => skipLines r
  | '\n' :: r => skipLines r
  | '\r' :: '\n' :: r => skipLines r
  | cs => cs

/-- What follows a backslash at the end of a line, from behind the backslash: the next
line that is not blank, from its first character on. -/
def continued? (cs : List Char) : Option (List Char) := (afterBreak? (skipBlanks cs)).map skipLines

/-- The longest run of quotes that can end a text of several lines: two of its own, and
three that close it. -/
def longestEnd : Nat := 5

/-- The text up to its closing quotes, and what follows them. -/
def body? (f : TextForm) : Nat → List Char → Option (List Char × List Char)
  | 0, _ => none
  | _ + 1, [] => none
  | fuel + 1, c :: r =>
    let then_ (read : List Char) (rest : List Char) : Option (List Char × List Char) :=
      (body? f fuel rest).map fun (cs, rest) => (read ++ cs, rest)
    if c = f.quote then
      if !f.multiline then some ([], r)
      else
        let run := ((c :: r).takeWhile (· = c)).length
        if run < 3 then then_ [c] r
        else
          let run := min run longestEnd
          some (List.replicate (run - 3) c, (c :: r).drop run)
    else if c = '\\' && f.hasEscapes then
      match if f.multiline then continued? r else none with
      | some rest => then_ [] rest
      | none =>
        match escape? r with
        | some (e, rest) => then_ [e] rest
        | none => none
    else
      match if f.multiline then afterBreak? (c :: r) else none with
      | some rest => then_ ['\n'] rest
      | none => if isPlainChar c then then_ [c] r else none

/-- A text of a form from behind its opening quotes on. -/
def textFrom? (f : TextForm) (cs : List Char) : Option (String × List Char) :=
  (body? f (cs.length + 1) cs).map fun (s, rest) => (String.ofList s, rest)

/-- A line break right behind the opening quotes does not belong to the text. -/
def skipBreak (cs : List Char) : List Char := (afterBreak? cs).getD cs

/-- A text in any form, and what follows it. -/
def text? : List Char → Option (String × List Char)
  | '"' :: '"' :: '"' :: r => textFrom? .basicLines (skipBreak r)
  | '\'' :: '\'' :: '\'' :: r => textFrom? .literalLines (skipBreak r)
  | '"' :: r => textFrom? .basic r
  | '\'' :: r => textFrom? .literal r
  | _ => none

/-! ## Writing -/

/-- The length of the longest run of a character; the first argument is the length of
the run that ends here. -/
def longestRunFrom (c : Char) : Nat → List Char → Nat
  | run, [] => run
  | run, d :: r => if d = c then longestRunFrom c (run + 1) r else max run (longestRunFrom c 0 r)

/-- The length of the longest run of a character. -/
def longestRun (c : Char) (cs : List Char) : Nat := longestRunFrom c 0 cs

/-- Whether a character cannot stand in any text as it is. -/
def needsEscape (c : Char) : Bool := !isPlainChar c && c ≠ '\n'

/-- Whether a text can stand between single quotes, or several double ones, as it is. -/
def fits (f : TextForm) (cs : List Char) : Bool :=
  !cs.any needsEscape && (f.multiline || '\n' ∉ cs) &&
    longestRun f.quote cs ≤ (if f.multiline then 2 else 0) &&
    !(f.hasEscapes && '\\' ∈ cs)

/-- The forms in the order in which they are tried. -/
def forms : List TextForm := [.basic, .literal, .basicLines, .literalLines]

/-- The form that a text is written in. -/
def formOf (cs : List Char) : TextForm :=
  match forms.find? (fits · cs) with
  | some f => f
  | none => if '\n' ∈ cs then .basicLines else .basic

/-- The form that a key is written in. -/
def keyForm (cs : List Char) : TextForm :=
  match [TextForm.basic, .literal].find? (fits · cs) with
  | some f => f
  | none => .basic

/-- Four digits in upper case. -/
def numberedEscape (c : Char) : List Char :=
  let ds := (Nat.toDigits 16 c.toNat).map Char.toUpper
  "\\u".toList ++ List.replicate (4 - ds.length) '0' ++ ds

/-- The short escape of a character, if it has one. Quotes have their own rule. -/
def shortEscape? : Char → Option (List Char)
  | '\x08' => some "\\b".toList
  | '\t' => some "\\t".toList
  | '\n' => some "\\n".toList
  | '\x0c' => some "\\f".toList
  | '\r' => some "\\r".toList
  | '\\' => some "\\\\".toList
  | _ => none

/-- A text with escapes. The number counts the quotes just written: in a text of several
lines two may stand side by side. -/
def escaped (f : TextForm) : Nat → List Char → List Char
  | _, [] => []
  | run, c :: r =>
    if c = '"' then
      if run < (if f.multiline then 2 else 0) then '"' :: escaped f (run + 1) r
      else "\\\"".toList ++ escaped f 0 r
    else if c = '\n' && f.multiline then '\n' :: escaped f 0 r
    else match shortEscape? c with
      | some e => e ++ escaped f 0 r
      | none => (if needsEscape c then numberedEscape c else [c]) ++ escaped f 0 r

/-- A text in a form. Several lines start on a line of their own. -/
def writeAs (f : TextForm) (cs : List Char) : List Char :=
  f.delimiter ++ (if f.multiline && '\n' ∈ cs then ['\n'] else []) ++
    (if f.hasEscapes then escaped f 0 cs else cs) ++ f.delimiter

/-- A text in the first form that fits it. -/
def writeText (s : String) : List Char := writeAs (formOf s.toList) s.toList

end Toml

end Onboarding
