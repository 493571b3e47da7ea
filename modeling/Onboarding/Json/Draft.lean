import Onboarding.Json
import Onboarding.Text.DoubleRange
/-!
# JSON drafts — what a text holds, as far as it can be read

Reading a JSON text never fails as a whole. A `Draft` keeps what was read up to
the first malformed place and marks that place, so that a reader who meets a value
of the wrong kind earlier can report that instead. A text may hold numbers that do
not fit a word and escapes that are no characters; both are malformed only for
those who ask for their value.
-/

namespace Onboarding

/-- A JSON text as far as it can be read. -/
inductive Draft where
  /-- Malformed here. -/
  | broken
  | null
  | bool (b : Bool)
  /-- A number; its value if it is a natural number of 64 bits. -/
  | number (n : Option UInt64)
  /-- A number beyond the range of doubles: malformed for those who ask for it. -/
  | excess
  /-- A text; nothing if an escape in it is half of a pair. -/
  | text (s : Option String)
  /-- Items, and whether the closing bracket follows them. -/
  | array (items : List Draft) (closed : Bool)
  /-- Members, and whether the closing brace follows them. -/
  | object (members : List (String × Draft)) (closed : Bool)
deriving Repr, Inhabited

namespace Draft

mutual

/-- Whether nothing in the value is malformed. -/
def wellFormed : Draft → Bool
  | .broken => false
  | .array items closed => allWellFormed items && closed
  | .object members closed => membersWellFormed members && closed
  | _ => true

/-- Whether nothing in a list of items is malformed. -/
def allWellFormed : List Draft → Bool
  | [] => true
  | d :: r => wellFormed d && allWellFormed r

/-- Whether nothing in a list of members is malformed. -/
def membersWellFormed : List (String × Draft) → Bool
  | [] => true
  | (_, d) :: r => wellFormed d && membersWellFormed r

end

/-- The four blanks between tokens. -/
def isSpace (c : Char) : Bool := c = ' ' || c = '\n' || c = '\r' || c = '\t'

/-- The text after the blanks at its front. -/
def skipSpace (cs : List Char) : List Char := cs.dropWhile isSpace

/-- Four hexadecimal digits. -/
def hex4 : List Char → Option (Nat × List Char)
  | a :: b :: c :: d :: r => do
    let a ← Hex.value a
    let b ← Hex.value b
    let c ← Hex.value c
    let d ← Hex.value d
    return (((a * 16 + b) * 16 + c) * 16 + d, r)
  | _ => none

/-- The character of a two-character escape. -/
def shortEscape : Char → Option Char
  | '"' => some '"'
  | '\\' => some '\\'
  | '/' => some '/'
  | 'b' => some '\x08'
  | 'f' => some '\x0c'
  | 'n' => some '\n'
  | 'r' => some '\r'
  | 't' => some '\t'
  | _ => none

/-- The units of a text up to its closing quote: characters, and the values of
numbered escapes. Nothing if the text does not end or holds a bad escape or a bare
control. -/
def units : Nat → List Char → Option (List (Char ⊕ Nat) × List Char)
  | 0, _ => none
  | _ + 1, [] => none
  | fuel + 1, c :: r =>
    if c = '"' then some ([], r)
    else if c = '\\' then
      match r with
      | 'u' :: r => do
        let (n, r) ← hex4 r
        let (us, r) ← units fuel r
        return (.inr n :: us, r)
      | e :: r => do
        let e ← shortEscape e
        let (us, r) ← units fuel r
        return (.inl e :: us, r)
      | [] => none
    else if c.toNat < 0x20 then none
    else do
      let (us, r) ← units fuel r
      return (.inl c :: us, r)

/-- The characters of a list of units; nothing if half of a pair stands alone. -/
def joinUnits : List (Char ⊕ Nat) → Option (List Char)
  | [] => some []
  | .inl c :: r => (joinUnits r).map (c :: ·)
  | .inr n :: r =>
    if n < 0xD800 ∨ 0xDFFF < n then (joinUnits r).map (Char.ofNat n :: ·)
    else if n < 0xDC00 then
      match r with
      | .inr m :: r =>
        if 0xDC00 ≤ m ∧ m ≤ 0xDFFF then
          (joinUnits r).map (Char.ofNat (0x10000 + (n - 0xD800) * 0x400 + (m - 0xDC00)) :: ·)
        else none
      | _ => none
    else none

/-- The digits after an exponent mark and their sign, and the rest. -/
def exponentPart (r : List Char) : Option (Int × List Char) :=
  let (negative, r) := match r with
    | '-' :: r => (true, r)
    | '+' :: r => (false, r)
    | r => (false, r)
  let ds := r.takeWhile Char.isDigit
  if ds.isEmpty then none
  else
    let n : Int := digitsValue ds
    some (if negative then -n else n, r.dropWhile Char.isDigit)

/-- A number from its first character on: a sign, digits without a leading zero, a
fraction and an exponent. -/
def readNumber (cs : List Char) : Draft × Option (List Char) :=
  let (negative, cs) := match cs with
    | '-' :: r => (true, r)
    | cs => (false, cs)
  let whole := cs.takeWhile Char.isDigit
  let rest := cs.dropWhile Char.isDigit
  if whole.isEmpty || (whole.head? == some '0' && 1 < whole.length) then (.broken, none)
  else
    let (fraction, rest) := match rest with
      | '.' :: r => (some (r.takeWhile Char.isDigit), r.dropWhile Char.isDigit)
      | r => (none, r)
    if fraction == some [] then (.broken, none)
    else
      let digits := digitsValue (whole ++ fraction.getD [])
      let point : Int := (fraction.getD []).length
      let exponent : Option (Option Int × List Char) := match rest with
        | 'e' :: r => (exponentPart r).map fun (e, r) => (some e, r)
        | 'E' :: r => (exponentPart r).map fun (e, r) => (some e, r)
        | r => some (none, r)
      match exponent with
      | none => (.broken, none)
      | some (e, rest) =>
        let plain := !negative && fraction.isNone && e.isNone && digits < UInt64.size
        let value :=
          if plain then .number (some (UInt64.ofNat digits))
          else if beyondDouble digits (e.getD 0 - point) then .excess
          else .number none
        (value, some rest)

/-- A text from behind its opening quote on. -/
def readText (cs : List Char) : Draft × Option (List Char) :=
  match units (cs.length + 1) cs with
  | none => (.broken, none)
  | some (us, r) => (.text ((joinUnits us).map String.ofList), some r)

/-- A fixed word from its first character on. -/
def readWord (word : String) (value : Draft) (cs : List Char) : Draft × Option (List Char) :=
  if word.toList.isPrefixOf cs then (value, some (cs.drop word.length)) else (.broken, none)

mutual

/-- A value and the text after it, or nothing after a malformed one. -/
def readValue : Nat → List Char → Draft × Option (List Char)
  | 0, _ => (.broken, none)
  | fuel + 1, cs =>
    match skipSpace cs with
    | [] => (.broken, none)
    | '"' :: r => readText r
    | '[' :: r => readItems fuel true r
    | '\x7b' :: r => readMembers fuel true r
    | 'n' :: r => readWord "ull" .null r
    | 't' :: r => readWord "rue" (.bool true) r
    | 'f' :: r => readWord "alse" (.bool false) r
    | c :: r => if c = '-' || c.isDigit then readNumber (c :: r) else (.broken, none)

/-- The items of an array from behind its bracket or, unless `first`, from behind an
item on. -/
def readItems : Nat → Bool → List Char → Draft × Option (List Char)
  | 0, _, _ => (.array [] false, none)
  | fuel + 1, first, cs =>
    match skipSpace cs with
    | [] => (.array [] false, none)
    | ']' :: r => (.array [] true, some r)
    | c :: r =>
      if !first && (c ≠ ',' || (skipSpace r).head? == some ']') then (.array [] false, none)
      else
        let (item, rest) := readValue fuel (if first then c :: r else r)
        match rest with
        | none => (.array [item] false, none)
        | some rest =>
          match readItems fuel false rest with
          | (.array items closed, rest) => (.array (item :: items) closed, rest)
          | other => other

/-- The members of an object from behind its brace or, unless `first`, from behind a
member on. -/
def readMembers : Nat → Bool → List Char → Draft × Option (List Char)
  | 0, _, _ => (.object [] false, none)
  | fuel + 1, first, cs =>
    match skipSpace cs with
    | [] => (.object [] false, none)
    | '\x7d' :: r => (.object [] true, some r)
    | c :: r =>
      if !first && c ≠ ',' then (.object [] false, none)
      else
        match skipSpace (if first then c :: r else r) with
        | '"' :: r =>
          match readText r with
          | (.text (some key), some r) =>
            match skipSpace r with
            | ':' :: r =>
              let (value, rest) := readValue fuel r
              match rest with
              | none => (.object [(key, value)] false, none)
              | some rest =>
                match readMembers fuel false rest with
                | (.object members closed, rest) =>
                  (.object ((key, value) :: members) closed, rest)
                | other => other
            | _ => (.object [(key, .broken)] false, none)
          | _ => (.object [] false, none)
        | _ => (.object [] false, none)

end

/-- The value at the front of a text, and what follows it. -/
def ofText (s : String) : Draft × Option (List Char) :=
  let cs := s.toList
  readValue (2 * cs.length + 2) cs

end Draft

end Onboarding
