import Onboarding.IpAddress
import Onboarding.Text.Percent
import Onboarding.Text.Split
import Onboarding.Text.Utf8
/-!
# Web addresses — which texts an HTTP call can be made to

An address is read as browsers read it: blanks around it and line breaks inside it do
not count, slashes may lean either way, and a host may be written with escapes, in any
case, or as a number. What follows the host is never wrong. `HttpUrl.parse?` gives the
parts that a connection needs.
-/

namespace Onboarding

/-- Where a call goes to. -/
inductive Host where
  | domain (name : List Char)
  | ipv4 (address : Nat)
  | ipv6 (pieces : List Nat)
deriving DecidableEq, Repr

/-- An address that a call can be made to. -/
structure HttpUrl where
  secure : Bool
  host : Host
  port : Option Nat
deriving DecidableEq, Repr

namespace HttpUrl

/-- Controls and the space, which do not count around an address. -/
def isEdge (c : Char) : Bool := c.toNat ≤ 0x20

/-- Line breaks and tabs, which do not count inside an address. -/
def isIgnored (c : Char) : Bool := c = '\t' || c = '\n' || c = '\r'

/-- The characters of an address that count. -/
def clean (text : String) : List Char :=
  ((((text.toList.dropWhile isEdge).reverse).dropWhile isEdge).reverse).filter (!isIgnored ·)

/-- Characters of a scheme after its first letter. -/
def isSchemeChar (c : Char) : Bool := c.isAlphanum || c = '+' || c = '-' || c = '.'

/-- The scheme at the front, in lower case, and what follows its colon. -/
def scheme? (cs : List Char) : Option (List Char × List Char) :=
  let name := cs.takeWhile isSchemeChar
  match cs.drop name.length with
  | ':' :: r => if name.head?.any Char.isAlpha then some (name.map Char.toLower, r) else none
  | _ => none

/-- A slash of either kind. -/
def isSlash (c : Char) : Bool := c = '/' || c = '\\'

/-- Whether a character ends the host and its port. -/
def endsAuthority (c : Char) : Bool := isSlash c || c = '?' || c = '#'

/-- The part after the last `@`; nothing where an `@` is all there is. -/
def withoutUser? (cs : List Char) : Option (List Char) :=
  if '@' ∈ cs then
    match (cs.reverse.takeWhile (· ≠ '@')).reverse with
    | [] => none
    | host => some host
  else some cs

/-- The host and what follows it: the first colon outside brackets. The flag says
whether a bracket is open. -/
def splitHost : Bool → List Char → List Char × List Char
  | _, [] => ([], [])
  | inside, c :: r =>
    if c = ':' && !inside then ([], c :: r)
    else
      let (host, rest) := splitHost (c = '[' || (inside && c ≠ ']')) r
      (c :: host, rest)

/-- A port, which may be empty. -/
def port? : List Char → Option (Option Nat)
  | [] => some none
  | [':'] => some none
  | ':' :: ds =>
    if ds.all Char.isDigit then
      let n := Nat.ofDigitChars 10 ds 0
      if n < 65536 then some (some n) else none
    else none
  | _ => none

/-! ## Hosts -/

/-- Characters that no host has. -/
def isForbidden (c : Char) : Bool :=
  c.toNat ≤ 0x20 || c.toNat = 0x7F || "#/:<>?@[\\]^|%".toList.contains c

/-- The digits of a number without the mark of its base, and the base. -/
def baseOf : List Char → List Char × Nat
  | '0' :: x :: r => if x = 'x' then (r, 16) else (x :: r, 8)
  | cs => (cs, 10)

/-- A number in base ten, eight after a zero, or sixteen after `0x`. -/
def number? (cs : List Char) : Option Nat :=
  if cs.isEmpty then none
  else
    let (digits, base) := baseOf cs
    let value (c : Char) : Option Nat := (Hex.value c).filter (· < base)
    digits.foldlM (fun n c => (value c).map (base * n + ·)) 0

/-- The parts of a dotted host, without an empty last one. -/
def hostParts (cs : List Char) : List (List Char) :=
  let parts := splitAll '.' cs
  if parts.length > 1 && parts.getLast? == some [] then parts.dropLast else parts

/-- Whether a host has to be read as a number. -/
def endsInNumber (cs : List Char) : Bool :=
  match (hostParts cs).getLast? with
  | none => false
  | some last => (!last.isEmpty && last.all Char.isDigit) || (number? last).isSome

/-- The number that a dotted host stands for: a byte for each part, and all bytes that
are left for the last. -/
def ipv4? (cs : List Char) : Option Nat :=
  match (hostParts cs).mapM number? with
  | none => none
  | some ns =>
    match ns.getLast? with
    | none => none
    | some last =>
      let bytes := ns.dropLast
      if 4 < ns.length || bytes.any (255 < ·) || Nat.pow 256 (4 - bytes.length) ≤ last then none
      else some (bytes.zipIdx.foldl (fun n b => n + b.1 * Nat.pow 256 (3 - b.2)) last)

/-- The host that a text stands for. -/
def host? (cs : List Char) : Option Host :=
  match cs with
  | [] => none
  | '[' :: r =>
    if r.getLast? = some ']' then (IpAddress.pieces? r.dropLast).map .ipv6 else none
  | cs =>
    match Utf8.text (Percent.decode (Utf8.bytes (String.ofList cs))) with
    | .error _ => none
    | .ok s =>
      let name := s.toList.map Char.toLower
      if name.isEmpty || name.any isForbidden then none
      else if endsInNumber name then (ipv4? name).map .ipv4
      else some (.domain name)

/-- The address that a text stands for, if HTTP calls can be made to it. -/
def parse? (text : String) : Option HttpUrl := do
  let (scheme, r) ← scheme? (clean text)
  let secure ← if scheme = "https".toList then some true
    else if scheme = "http".toList then some false else none
  let authority := (r.dropWhile isSlash).takeWhile (!endsAuthority ·)
  let (hostText, portText) := splitHost false (← withoutUser? authority)
  let host ← host? hostText
  let port ← port? portText
  return ⟨secure, host, port⟩

end HttpUrl

end Onboarding
