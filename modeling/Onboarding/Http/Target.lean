import Onboarding.Text.Percent
import Onboarding.Text.Split
import Onboarding.Text.Utf8
/-!
# Request targets — the path that a request asks for

A target is a path with an optional query, a whole address with a scheme and an
authority, an authority alone, or `*`. `Target.path?` gives the path of a target, which
is empty for an authority alone, or nothing where the target is malformed. A fragment
is cut off.
-/

namespace Onboarding

namespace Target

/-- The longest target, in bytes. -/
def maxLength : Nat := 65534

/-- Characters of a path. Some that should have been written as percent escapes are let
through. -/
def isPathChar (c : Char) : Bool := 0x21 ≤ c.toNat && !"#<>?\x60".toList.contains c

/-- Characters of a query. -/
def isQueryChar (c : Char) : Bool := 0x21 ≤ c.toNat && !"\"#<>".toList.contains c

/-- The path of a target in path form. -/
def pathOnly? (cs : List Char) : Option (List Char) :=
  let path := cs.takeWhile isPathChar
  match cs.dropWhile isPathChar with
  | '?' :: query =>
    match query.dropWhile isQueryChar with
    | [] | '#' :: _ => some path
    | _ => none
  | [] | '#' :: _ => some path
  | _ => none

/-- Characters of a scheme, its colon included. -/
def isSchemeChar (c : Char) : Bool := c.isAlphanum || "+-.:~".toList.contains c

/-- The longest scheme. -/
def maxScheme : Nat := 64

/-- A target's scheme, where it has one. -/
inductive Scheme where
  | none
  | tooLong
  /-- A scheme, and what follows its slashes. -/
  | rest (cs : List Char)

/-- Looks for a scheme at the front of a target. -/
def scheme (cs : List Char) : Scheme :=
  if cs.length ≤ 3 then .none
  else
    let name := cs.takeWhile fun c => isSchemeChar c && c ≠ ':'
    match cs.drop name.length with
    | ':' :: '/' :: '/' :: r => if maxScheme < name.length then .tooLong else .rest r
    | _ => .none

/-- Characters of an authority besides those that structure it. -/
def isAuthorityChar (c : Char) : Bool := c.isAlphanum || "!$&'()*+,-.;=_~".toList.contains c

/-- What was met of an authority so far. -/
structure AuthorityScan where
  colons : Nat := 0
  opened : Bool := false
  closed : Bool := false
  /-- A percent sign outside the user's part. -/
  percent : Bool := false
  /-- The last character was an `@`. -/
  endsAtUser : Bool := false

namespace AuthorityScan

/-- The most colons of an authority between brackets. -/
def maxColons : Nat := 8

/-- The next character of an authority. -/
def step (s : AuthorityScan) (c : Char) : Option AuthorityScan :=
  let s := { s with endsAtUser := false }
  if c = ':' then if maxColons ≤ s.colons then none else some { s with colons := s.colons + 1 }
  else if c = '[' then if s.percent || s.opened then none else some { s with opened := true }
  else if c = ']' then
    if !s.opened || s.closed then none
    else some { s with closed := true, colons := 0, percent := false }
  else if c = '@' then some { s with colons := 0, percent := false, endsAtUser := true }
  else if c = '%' then some { s with percent := true }
  else if isAuthorityChar c then some s
  else none

/-- Whether the authority may end here. -/
def accepts (s : AuthorityScan) : Bool :=
  s.opened == s.closed && s.colons ≤ 1 && !s.endsAtUser && !s.percent

end AuthorityScan

/-- Whether a character ends an authority. -/
def endsAuthority (c : Char) : Bool := c = '/' || c = '?' || c = '#'

/-- What follows the authority at the front, unless that is malformed. -/
def afterAuthority? (cs : List Char) : Option (List Char) :=
  let authority := cs.takeWhile fun c => !endsAuthority c
  match authority.foldlM AuthorityScan.step { } with
  | some s => if s.accepts then some (cs.drop authority.length) else none
  | none => none

/-- A path that stands behind an authority; empty means the root. -/
def orRoot : List Char → List Char
  | [] => ['/']
  | cs => cs

/-- The path of a target. -/
def path? (target : String) : Option (List Char) :=
  if target.isEmpty || maxLength < byteLength target then none
  else match target.toList with
    | ['*'] => some ['*']
    | '/' :: r => pathOnly? ('/' :: r)
    | cs =>
      match scheme cs with
      | .tooLong => none
      | .none => if afterAuthority? cs = some [] then some [] else none
      | .rest r =>
        match afterAuthority? r with
        | none => none
        | some tail => if tail.length = r.length then none else (pathOnly? tail).map orRoot

/-- The text of one part of a path, unless its bytes are no text. -/
def segment? (cs : List Char) : Option String :=
  match Utf8.text (Percent.decode (Utf8.bytes (String.ofList cs))) with
  | .ok s => some s
  | .error _ => none

/-- The parts of a path between its slashes. -/
def segments (path : List Char) : List (List Char) := splitAll '/' path

end Target

end Onboarding
