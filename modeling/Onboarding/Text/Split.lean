/-!
# Splitting — at the first, the last or every occurrence of a character

Each search gives the parts on either side and leaves the character itself out.
The last section folds the case of ASCII letters, which is all that domains,
addresses and hexadecimal texts need.
-/

namespace Onboarding

/-- The parts before and after the last occurrence of a character. -/
def splitLast? (sep : Char) (cs : List Char) : Option (List Char × List Char) :=
  if sep ∈ cs then
    let after := (cs.reverse.takeWhile (· ≠ sep)).reverse
    some (cs.take (cs.length - after.length - 1), after)
  else none

/-- The parts before and after the first occurrence of a character. -/
def splitFirst? (sep : Char) (cs : List Char) : Option (List Char × List Char) :=
  if sep ∈ cs then
    some (cs.takeWhile (· ≠ sep), (cs.dropWhile (· ≠ sep)).tail)
  else none

/-- The parts between the occurrences of a character, one part more than there are
occurrences. -/
def splitAll (sep : Char) : List Char → List (List Char)
  | [] => [[]]
  | c :: r =>
    if c = sep then [] :: splitAll sep r
    else match splitAll sep r with
      | [] => [[c]]
      | p :: ps => (c :: p) :: ps

/-- A text with its ASCII letters in lower case and every other character as it
is. -/
def asciiLower (s : String) : String := String.ofList (s.toList.map Char.toLower)

end Onboarding
