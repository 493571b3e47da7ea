/-!
# Media types — whether a body says that it is JSON

A media type is a type and a subtype, each in the characters of a token, with
parameters behind semicolons. JSON is `application/json` in any case, or any
subtype of `application` with the suffix `+json`.
-/

namespace Onboarding

namespace MediaType

/-- Characters of a token. -/
def isTokenChar (c : Char) : Bool := c.isAlphanum || "!#$%&'*+-.^_\x60|~".toList.contains c

/-- Characters between quotes. -/
def isQuotedChar (c : Char) : Bool := 0x20 ≤ c.toNat && c.toNat < 0x7F

/-- Whether what follows a closing quote leads to the next parameter, and which rest
that is. -/
def afterQuote? : List Char → Option (List Char)
  | [] => some []
  | ';' :: r => some r
  | ' ' :: r => afterQuote? r
  | _ => none

/-- The rest after a parameter's value. -/
def afterValue? (cs : List Char) : Option (List Char) :=
  match cs with
  | '"' :: c :: r =>
    if !isQuotedChar c then none
    else match r.dropWhile fun c => isQuotedChar c && c ≠ '"' with
      | '"' :: r => afterQuote? r
      | _ => none
  | cs =>
    let value := cs.takeWhile isTokenChar
    match cs.drop value.length with
    | [] => some []
    | ';' :: r => if value.isEmpty then none else some r
    | _ => none

/-- Whether a text is a list of parameters. Blanks may stand before each. -/
def areParameters : Nat → List Char → Bool
  | 0, _ => false
  | fuel + 1, cs =>
    match cs.dropWhile (· = ' ') with
    | [] => true
    | cs =>
      let name := cs.takeWhile isTokenChar
      match cs.drop name.length with
      | '=' :: r =>
        !name.isEmpty &&
          match afterValue? r with
          | some rest => areParameters fuel rest
          | none => false
      | _ => false

/-- The parts of a subtype before and after its last `+`, which does not stand at its
front. -/
def splitSuffix (cs : List Char) : List Char × Option (List Char) :=
  let suffix := (cs.reverse.takeWhile (· ≠ '+')).reverse
  let base := cs.take (cs.length - suffix.length - 1)
  if base.isEmpty then (cs, none) else (base, some suffix)

/-- Whether a media type is JSON. -/
def isJson (text : String) : Bool :=
  let cs := text.toList.map Char.toLower
  let kind := cs.takeWhile isTokenChar
  match cs.drop kind.length with
  | '/' :: r =>
    let subtype := r.takeWhile isTokenChar
    let parameters :=
      match r.drop subtype.length with
      | [] => true
      | ';' :: p => !subtype.isEmpty && areParameters (p.length + 1) p
      | _ => false
    let (base, suffix) := splitSuffix subtype
    parameters && kind == "application".toList &&
      (base == "json".toList || suffix == some "json".toList)
  | _ => false

/-- Whether a text can be the value of a header. -/
def isHeaderValue (text : String) : Bool :=
  text.toList.all fun c => c = '\t' || (0x20 ≤ c.toNat && c.toNat ≠ 0x7F)

/-- Whether a text is the name of a request method. -/
def isMethodName (text : String) : Bool := !text.isEmpty && text.toList.all isTokenChar

end MediaType

end Onboarding
