import Onboarding.Text.Blank
import Onboarding.Text.CaseTable
/-!
# Lower case — the full mapping of a text

Every character maps to the small letter of its run, with two exceptions: the
capital dotted I becomes two characters, and a capital sigma becomes the final
small sigma where it ends a word. It ends a word if, passing over
case-ignorable characters, a cased letter stands before it and none after it.
-/

namespace Onboarding

namespace Lowercase

/-- Whether a capital letter at `n` belongs to the run. -/
def inRun (n : Nat) (r : CaseRun) : Bool :=
  r.first ≤ n && n ≤ r.last && (n - r.first) % r.step == 0

/-- The small letter of a single character. -/
def simple (c : Char) : Char :=
  if c.toNat < 0x80 then c.toLower
  else match lowerRuns.find? (inRun c.toNat) with
    | some r => Char.ofNat (c.toNat + r.shift).toNat
    | none => c

/-- Whether the first character that is not case-ignorable is a cased letter. -/
def meetsCased (cs : List Char) : Bool :=
  match cs.dropWhile fun c => inRanges caseIgnorableRanges c.toNat with
  | [] => false
  | c :: _ => inRanges casedRanges c.toNat

/-- The small letters of one character, given what stands before it, nearest
first, and after it. -/
def lowerAt (before : List Char) (c : Char) (after : List Char) : List Char :=
  if c = 'Σ' then
    if meetsCased before && !meetsCased after then ['ς'] else ['σ']
  else if c = 'İ' then ['i', '\u0307']
  else [simple c]

/-- The small letters of `cs`, given what stands before it, nearest first. -/
def lowerFrom (before : List Char) : List Char → List Char
  | [] => []
  | c :: r => lowerAt before c r ++ lowerFrom (c :: before) r

end Lowercase

/-- A text in lower case. -/
def lowercase (s : String) : String := String.ofList (Lowercase.lowerFrom [] s.toList)

end Onboarding
