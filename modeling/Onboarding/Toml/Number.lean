import Onboarding.Text.DoubleRange
import Onboarding.Text.Hex
import Onboarding.Toml
/-!
# TOML numbers, dates and times

Integers have 63 bits and a sign; they may be written in base sixteen, eight or two.
Underscores may stand between digits. Numbers with a fraction must not be beyond the
range of doubles, unless they are negative. Dates are days of the calendar.
-/

namespace Onboarding

namespace Toml

/-! ## Numbers -/

/-- A character of a run of digits. -/
def isDigitOrMark (isDigit : Char → Bool) (c : Char) : Bool := isDigit c || c = '_'

/-- Whether every underscore stands between two digits; the flag says whether a digit
stands in front. -/
def marksBetween : Bool → List Char → Bool
  | afterDigit, [] => afterDigit
  | afterDigit, '_' :: r => afterDigit && marksBetween false r
  | _, _ :: r => marksBetween true r

/-- Digits without their underscores, and what follows them. -/
def digits? (isDigit : Char → Bool) (cs : List Char) : Option (List Char × List Char) :=
  let run := cs.takeWhile (isDigitOrMark isDigit)
  if marksBetween false run then
    some (run.filter (· ≠ '_'), cs.dropWhile (isDigitOrMark isDigit))
  else none

/-- Whether there is a minus sign, and what follows the sign if there is one. -/
def sign : List Char → Bool × List Char
  | '-' :: r => (true, r)
  | '+' :: r => (false, r)
  | cs => (false, cs)

/-- Digits without a leading zero. -/
def wholeDigits? (cs : List Char) : Option (List Char × List Char) :=
  match digits? Char.isDigit cs with
  | some (ds, rest) => if ds.head? == some '0' && 1 < ds.length then none else some (ds, rest)
  | none => none

/-- The largest integer and one. -/
def integerLimit : Nat := 0x8000000000000000

/-- An integer with a base of its own, from behind the mark of its base. -/
def basedInteger? (base : Nat) (cs : List Char) : Option (Int × List Char) := do
  let (ds, rest) ← digits? (fun c => (Hex.value c).any (· < base)) cs
  let n := ds.foldl (fun n d => base * n + (Hex.value d).getD 0) 0
  if n < integerLimit then return (n, rest) else none

/-- An integer. -/
def integer? : List Char → Option (Int × List Char)
  | '0' :: 'x' :: r => basedInteger? 16 r
  | '0' :: 'o' :: r => basedInteger? 8 r
  | '0' :: 'b' :: r => basedInteger? 2 r
  | cs => do
    let (negative, cs) := sign cs
    let (ds, rest) ← wholeDigits? cs
    let n := digitsValue ds
    if negative then (if n ≤ integerLimit then return (-n, rest) else none)
    else if n < integerLimit then return (n, rest) else none

/-- An exponent and what follows it. -/
def exponent? : List Char → Option (Int × List Char)
  | e :: r =>
    if e = 'e' || e = 'E' then do
      let (negative, cs) := sign r
      let (ds, rest) ← digits? Char.isDigit cs
      let n : Int := digitsValue ds
      return (if negative then -n else n, rest)
    else none
  | [] => none

/-- A fraction and what follows it. -/
def fraction? : List Char → Option (List Char × List Char)
  | '.' :: r => digits? Char.isDigit r
  | _ => none

/-- What follows a word at the front. -/
def afterWord? (word : String) (cs : List Char) : Option (List Char) :=
  if word.toList.isPrefixOf cs then some (cs.drop word.length) else none

/-- What follows a number with a fraction, an exponent or both. -/
def afterDecimal? (cs : List Char) : Option (List Char) := do
  let (negative, cs) := sign cs
  let (whole, rest) ← wholeDigits? cs
  let fraction := fraction? rest
  let afterFraction := (fraction.map Prod.snd).getD rest
  let exponent := exponent? afterFraction
  let places := (fraction.map Prod.fst).getD []
  let power := (exponent.map Prod.fst).getD 0
  let digits := digitsValue (whole ++ places)
  if fraction.isNone && exponent.isNone then none
  else if !negative && beyondDouble digits (power - places.length) then none
  else return (exponent.map Prod.snd).getD afterFraction

/-- What follows a number that is no integer. -/
def afterFloat? (cs : List Char) : Option (List Char) :=
  let (_, unsigned) := sign cs
  ((afterDecimal? cs).or (afterWord? "inf" unsigned)).or (afterWord? "nan" unsigned)

/-! ## Dates and times -/

/-- A number of exactly so many digits. -/
def fixed? (digits : Nat) (cs : List Char) : Option (Nat × List Char) :=
  let ds := cs.take digits
  if ds.length = digits && ds.all Char.isDigit then some (digitsValue ds, cs.drop digits) else none

/-- A number of two digits in a range. -/
def within? (least most : Nat) (cs : List Char) : Option (Nat × List Char) :=
  (fixed? 2 cs).filter fun (n, _) => least ≤ n && n ≤ most

/-- Whether a year has a leap day. -/
def isLeapYear (year : Nat) : Bool := year % 4 = 0 && (year % 100 ≠ 0 || year % 400 = 0)

/-- The days of a month. -/
def daysOf (year month : Nat) : Nat :=
  if month = 2 then (if isLeapYear year then 29 else 28)
  else if month = 4 || month = 6 || month = 9 || month = 11 then 30
  else 31

/-- What follows a date. -/
def afterDate? (cs : List Char) : Option (List Char) := do
  let (year, cs) ← fixed? 4 cs
  let cs ← afterWord? "-" cs
  let (month, cs) ← within? 1 12 cs
  let cs ← afterWord? "-" cs
  let (_, cs) ← within? 1 (daysOf year month) cs
  return cs

/-- What follows a time: hours, minutes and seconds, which may have a fraction. -/
def afterTime? (cs : List Char) : Option (List Char) := do
  let (_, cs) ← within? 0 23 cs
  let cs ← afterWord? ":" cs
  let (_, cs) ← within? 0 59 cs
  let cs ← afterWord? ":" cs
  let (_, cs) ← within? 0 60 cs
  match cs with
  | '.' :: d :: r => if d.isDigit then return r.dropWhile Char.isDigit else return cs
  | _ => return cs

/-- What follows the distance of a time zone. -/
def afterZone? : List Char → Option (List Char)
  | [] => none
  | c :: r =>
    if c = 'Z' || c = 'z' then some r
    else if c = '+' || c = '-' then do
      let (_, cs) ← within? 0 23 r
      let cs ← afterWord? ":" cs
      let (_, cs) ← within? 0 59 cs
      return cs
    else none

/-- What follows the time of day behind a date. -/
def afterDayTime? : List Char → Option (List Char)
  | [] => none
  | c :: r =>
    if c = 'T' || c = 't' || c = ' ' then
      (afterTime? r).map fun rest => (afterZone? rest).getD rest
    else none

/-- What follows a date, a time or both. -/
def afterMoment? (cs : List Char) : Option (List Char) :=
  match afterDate? cs with
  | some rest => some ((afterDayTime? rest).getD rest)
  | none => afterTime? cs

/-! ## Values -/

/-- The characters up to a later place in the text. -/
def spelling (cs rest : List Char) : String := String.ofList (cs.take (cs.length - rest.length))

/-- A value that starts with a digit or a sign. -/
def number? (cs : List Char) : Option (Toml × List Char) :=
  match afterMoment? cs with
  | some rest => some (.date (spelling cs rest), rest)
  | none =>
    match afterFloat? cs with
    | some rest => some (.float (spelling cs rest), rest)
    | none => (integer? cs).map fun (n, rest) => (.integer n, rest)

end Toml

end Onboarding
