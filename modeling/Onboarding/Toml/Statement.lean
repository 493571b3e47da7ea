import Onboarding.Toml.Document
import Onboarding.Toml.Number
import Onboarding.Toml.Text
/-!
# TOML statements — what the lines of a file say

A file is a list of statements: headers that open a table, headers that add a table to a
list, and keys with their values. `Statement.readAll?` reads them and
`Statement.writeAll` writes them, one to a line, each header behind a blank line. What
they add up to is a matter of `Toml.File`.

Values are read with a count of the containers that may still be opened.
-/

namespace Onboarding

/-- What one line of a file says. -/
inductive Toml.Statement where
  /-- A table starts here. -/
  | table (path : List String)
  /-- The next table of a list starts here. -/
  | item (path : List String)
  /-- The value of a key, relative to the table that was started last. -/
  | assign (path : List String) (value : Toml)
deriving Repr, Inhabited

namespace Toml

/-! ## Keys -/

/-- Characters of a key without quotes. -/
def isBareChar (c : Char) : Bool := c.isAlphanum || c = '_' || c = '-'

/-- One part of a key, and what follows it. -/
def keyPart? : List Char → Option (String × List Char)
  | '"' :: r => textFrom? .basic r
  | '\'' :: r => textFrom? .literal r
  | cs =>
    match cs.takeWhile isBareChar with
    | [] => none
    | name => some (String.ofList name, cs.dropWhile isBareChar)

/-- The parts of a key between dots, at most as many as the first argument says. -/
def keyParts? : Nat → List Char → Option (List String × List Char)
  | 0, _ => none
  | more + 1, cs =>
    match keyPart? (skipBlanks cs) with
    | none => none
    | some (part, rest) =>
      match skipBlanks rest with
      | '.' :: r => (keyParts? more r).map fun (parts, rest) => (part :: parts, rest)
      | r => some ([part], r)

/-- A key and what follows it. -/
def key? (cs : List Char) : Option (List String × List Char) := keyParts? (depthLimit - 1) cs

/-! ## Values -/

/-- What follows blanks, line breaks and comments. The first argument bounds their
number. -/
def skipTrivia : Nat → List Char → List Char
  | 0, cs => cs
  | fuel + 1, cs =>
    let rest := match skipBlanks cs with
      | '#' :: r => afterComment r
      | r => r
    match afterBreak? rest with
    | some r => skipTrivia fuel r
    | none => skipBlanks cs

/-- What follows blanks, line breaks and comments. -/
def skipBetween (cs : List Char) : List Char := skipTrivia cs.length cs

/-- The items of an array up to its closing bracket, from behind the opening bracket or
a comma on. A comma may stand behind the last item. -/
def items? (item? : List Char → Option (Toml × List Char)) :
    Nat → List Char → Option (List Toml × List Char)
  | 0, _ => none
  | fuel + 1, cs =>
    match skipBetween cs with
    | ']' :: r => some ([], r)
    | cs =>
      match item? cs with
      | none => none
      | some (v, rest) =>
        match skipBetween rest with
        | ',' :: r => (items? item? fuel r).map fun (vs, rest) => (v :: vs, rest)
        | ']' :: r => some ([v], r)
        | _ => none

/-- A key with its value, and what follows the blanks behind them. -/
def assignment? (item? : List Char → Option (Toml × List Char)) (cs : List Char) :
    Option ((List String × Toml) × List Char) :=
  match key? cs with
  | some (path, '=' :: r) =>
    (item? (skipBlanks r)).map fun (v, rest) => ((path, v), skipBlanks rest)
  | _ => none

/-- The members of a table between braces up to the closing brace, from behind the
opening brace or a comma on. They stand on one line, with no comma behind the last. -/
def members? (item? : List Char → Option (Toml × List Char)) :
    Nat → List Char → Option (List (List String × Toml) × List Char)
  | 0, _ => none
  | fuel + 1, cs =>
    match assignment? item? cs with
    | none => none
    | some (m, rest) =>
      match rest with
      | ',' :: r => (members? item? fuel r).map fun (ms, rest) => (m :: ms, rest)
      | '\x7d' :: r => some ([m], r)
      | _ => none

/-- A table between braces, from behind the opening brace on. -/
def braced? (item? : List Char → Option (Toml × List Char)) (cs : List Char) :
    Option (Toml × List Char) :=
  match skipBlanks cs with
  | '\x7d' :: r => some (.table [], r)
  | _ =>
    match members? item? (cs.length + 1) cs with
    | none => none
    | some (ms, rest) => (ofAssignments? ms).map fun t => (t, rest)

/-- A value, in which at most so many containers stand in one another, and what follows
it. -/
def value? : Nat → List Char → Option (Toml × List Char)
  | depth, '[' :: r =>
    match depth with
    | 0 => none
    | depth + 1 => (items? (value? depth) (r.length + 1) r).map fun (vs, rest) => (.array vs, rest)
  | depth, '\x7b' :: r =>
    match depth with
    | 0 => none
    | depth + 1 => braced? (value? depth) r
  | _, 't' :: r => (afterWord? "rue" r).map fun rest => (.bool true, rest)
  | _, 'f' :: r => (afterWord? "alse" r).map fun rest => (.bool false, rest)
  | _, '"' :: r => (text? ('"' :: r)).map fun (s, rest) => (.text s, rest)
  | _, '\'' :: r => (text? ('\'' :: r)).map fun (s, rest) => (.text s, rest)
  | _, cs => number? cs

namespace Statement

/-! ## Reading -/

/-- A key between brackets from behind the opening ones on, and what follows the closing
ones. -/
def header? (closing : String) (cs : List Char) : Option (List String × List Char) :=
  match key? cs with
  | none => none
  | some (path, rest) => (afterWord? closing rest).map fun rest => (path, rest)

/-- The statement at the front of a line, and what follows it. -/
def read? : List Char → Option (Statement × List Char)
  | '[' :: '[' :: r => (header? "]]" r).map fun (path, rest) => (.item path, rest)
  | '[' :: r => (header? "]" r).map fun (path, rest) => (.table path, rest)
  | cs =>
    (assignment? (value? (depthLimit - 1)) cs).map fun ((path, v), rest) => (.assign path v, rest)

/-- The statements of a list of lines, as many lines as the first argument allows. -/
def readLines? : Nat → List Char → Option (List Statement)
  | _, [] => some []
  | 0, _ => none
  | lines + 1, cs =>
    match afterLine? cs with
    | some rest => readLines? lines rest
    | none =>
      match read? (skipBlanks cs) with
      | none => none
      | some (s, rest) =>
        match afterLine? rest with
        | none => none
        | some rest => (readLines? lines rest).map (s :: ·)

/-- The mark of the byte order, which may stand at the front of a file. -/
def orderMark : Char := '\ufeff'

/-- The statements of a file. -/
def readAll? (text : String) : Option (List Statement) :=
  let cs := match text.toList with
    | c :: r => if c = orderMark then r else c :: r
    | [] => []
  readLines? cs.length cs

end Statement

end Toml

end Onboarding
