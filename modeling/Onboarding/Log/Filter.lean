import Onboarding.Log.Line
import Onboarding.Text.Split
/-!
# Log filters — which lines are shown

A filter is a list of directives between commas: a level for everything, a target for
which everything is shown, or a target with a level. Of the directives whose target the
line's target starts with, the one with the longest target decides, and of several with
that target the last.
-/

namespace Onboarding

/-- A rule for the lines of a target. -/
structure LogDirective where
  /-- What the line's target starts with. -/
  target : List Char
  /-- The least grave level that is shown; nothing shows no line. -/
  level : Option LogLevel
deriving DecidableEq, Repr

namespace LogDirective

/-- The levels by name or number; `off` shows nothing. -/
def levelNames : List (String × Option LogLevel) :=
  [("off", none), ("error", some .error), ("warn", some .warn), ("info", some .info),
    ("debug", some .debug), ("trace", some .trace), ("0", none), ("1", some .error),
    ("2", some .warn), ("3", some .info), ("4", some .debug), ("5", some .trace)]

/-- The level that a text names in any case. -/
def level? (cs : List Char) : Option (Option LogLevel) :=
  levelNames.lookup (asciiLower (String.ofList cs))

/-- Characters of a target. -/
def isTargetChar (c : Char) : Bool := c.isAlphanum || c = '_' || c = ':' || c = '-'

/-- The directive that a text is. -/
def parse? (cs : List Char) : Option LogDirective :=
  match splitFirst? '=' cs with
  | none =>
    match level? cs with
    | some level => some ⟨[], level⟩
    | none => if !cs.isEmpty && cs.all isTargetChar then some ⟨cs, some .trace⟩ else none
  | some (target, name) =>
    if target.isEmpty || !target.all isTargetChar then none
    else if name.isEmpty then some ⟨target, some .trace⟩
    else (level? name).map fun level => ⟨target, level⟩

/-- Whether the directive is about a line. -/
def isAbout (d : LogDirective) (l : LogLine) : Bool := d.target.isPrefixOf l.target.toList

/-- Whether the directive shows lines of a level. -/
def shows (d : LogDirective) (level : LogLevel) : Bool :=
  match d.level with
  | none => false
  | some most => level.rank ≤ most.rank

end LogDirective

/-- A filter. -/
abbrev LogFilter : Type := List LogDirective

namespace LogFilter

/-- What is shown where nothing is said. -/
def errorsOnly : LogFilter := [⟨[], some .error⟩]

/-- A filter, or errors only if it has no directive. -/
def orErrors (f : LogFilter) : LogFilter := if f.isEmpty then errorsOnly else f

/-- The filter that a text is, directives that are none left out. -/
def ofText (s : String) : LogFilter :=
  orErrors ((splitAll ',' s.toList).filterMap LogDirective.parse?)

/-- The filter that a text is, unless some directive is none. -/
def ofText? (s : String) : Option LogFilter :=
  if s.isEmpty then some errorsOnly
  else ((splitAll ',' s.toList).mapM LogDirective.parse?).map orErrors

/-- The directive that decides about a line. -/
def deciding (f : LogFilter) (l : LogLine) : Option LogDirective :=
  (f.filter (·.isAbout l)).foldl (fun best d =>
    match best with
    | none => some d
    | some b => if d.target.length < b.target.length then some b else some d) none

/-- Whether a line is shown. -/
def shows (f : LogFilter) (l : LogLine) : Bool := (f.deciding l).any (·.shows l.level)

end LogFilter

end Onboarding
