import Onboarding.Text.Hex
import Onboarding.Text.Split
/-!
# IP addresses — of hosts and of sockets

An address is four bytes between dots, or eight pieces of sixteen bits between colons,
where one gap may stand for the zeros of one or more pieces and the last two pieces
may be written as four bytes. A socket is an address and a port; an address of pieces
stands between brackets and may have a scope.

A socket can be written in many ways. `SocketAddress.text` writes the usual one: no
leading zeros, lower case, and the gap for the first of the longest runs of zeros.
-/

namespace Onboarding

/-- The address of a host. -/
inductive IpAddress where
  | v4 (a b c d : Nat)
  | v6 (pieces : List Nat)
deriving DecidableEq, Repr

/-- A number in base ten below a limit; leading zeros count as digits. -/
def decimalBelow? (limit : Nat) (cs : List Char) : Option Nat :=
  if cs.isEmpty || !cs.all Char.isDigit then none
  else
    let n := Nat.ofDigitChars 10 cs 0
    if n < limit then some n else none

namespace IpAddress

/-! ## Reading -/

/-- A byte between dots: no leading zeros, at most 255. -/
def byte? (cs : List Char) : Option Nat :=
  if 1 < cs.length && cs.head? == some '0' then none else decimalBelow? 256 cs

/-- Four bytes between dots. -/
def bytes? (cs : List Char) : Option (List Nat) :=
  ((splitAll '.' cs).mapM byte?).filter (·.length = 4)

/-- The two pieces that four bytes make. -/
def bytePieces? (cs : List Char) : Option (List Nat) :=
  match bytes? cs with
  | some [a, b, c, d] => some [256 * a + b, 256 * c + d]
  | _ => none

/-- A piece: up to four hexadecimal digits. -/
def piece? (cs : List Char) : Option Nat :=
  if cs.isEmpty || 4 < cs.length then none
  else cs.foldlM (fun n c => (Hex.value c).map (16 * n + ·)) 0

/-- The pieces of parts whose last one may be four bytes. -/
def partPieces? : List (List Char) → Option (List Nat)
  | [] => some []
  | [last] => if '.' ∈ last then bytePieces? last else (piece? last).map ([·])
  | p :: rest => do return (← piece? p) :: (← partPieces? rest)

/-- The parts before and after the first gap. -/
def splitGap? : List Char → Option (List Char × List Char)
  | ':' :: ':' :: r => some ([], r)
  | c :: r => (splitGap? r).map fun (a, b) => (c :: a, b)
  | [] => none

/-- The pieces on one side of the gap. -/
def side? (cs : List Char) : Option (List Nat) :=
  if cs.isEmpty then some [] else partPieces? (splitAll ':' cs)

/-- The eight pieces of an address. A gap stands for at least one zero, and four bytes
stand only at the very end. -/
def pieces? (cs : List Char) : Option (List Nat) :=
  match splitGap? cs with
  | none => (side? cs).filter (·.length = 8)
  | some (before, after) =>
    if '.' ∈ before then none
    else match side? before, side? after with
      | some a, some b =>
        if a.length + b.length < 8 then
          some (a ++ List.replicate (8 - a.length - b.length) 0 ++ b)
        else none
      | _, _ => none

/-! ## Writing -/

/-- Bytes between dots. -/
def bytesText (bytes : List Nat) : String := ".".intercalate (bytes.map toString)

/-- Pieces between colons. -/
def piecesText (pieces : List Nat) : String := ":".intercalate (pieces.map Hex.ofNat)

/-- The number of zeros at the front. -/
def zeros (pieces : List Nat) : Nat := (pieces.takeWhile (· = 0)).length

/-- The start and the length of the first of the longest runs of zeros. -/
def longestRun : Nat → List Nat → Nat × Nat
  | start, [] => (start, 0)
  | start, p :: rest =>
    let here := zeros (p :: rest)
    let later := longestRun (start + 1) rest
    if here < later.2 then later else (start, here)

/-- An address in its usual form. -/
def text : IpAddress → String
  | v4 a b c d => bytesText [a, b, c, d]
  | v6 [0, 0, 0, 0, 0, 0xFFFF, x, y] =>
    "::ffff:" ++ bytesText [x / 256, x % 256, y / 256, y % 256]
  | v6 pieces =>
    match longestRun 0 pieces with
    | (start, length) =>
      if length < 2 then piecesText pieces
      else piecesText (pieces.take start) ++ "::" ++ piecesText (pieces.drop (start + length))

end IpAddress

/-- An address and a port. -/
structure SocketAddress where
  host : IpAddress
  /-- The scope of an address of pieces; zero is none. -/
  scope : Nat := 0
  port : Nat
deriving DecidableEq, Repr

namespace SocketAddress

/-- An address between brackets with its scope, and what follows. -/
def bracketed? (cs : List Char) : Option (List Nat × Nat × List Char) :=
  match splitFirst? ']' cs with
  | none => none
  | some (inner, rest) =>
    match splitFirst? '%' inner with
    | none => (IpAddress.pieces? inner).map fun ps => (ps, 0, rest)
    | some (address, scope) => do
      return (← IpAddress.pieces? address, ← decimalBelow? UInt32.size scope, rest)

/-- A port behind its colon. -/
def port? : List Char → Option Nat
  | ':' :: digits => decimalBelow? UInt16.size digits
  | _ => none

/-- The socket that a text names. -/
def parse? (s : String) : Option SocketAddress :=
  match s.toList with
  | '[' :: r => do
    let (pieces, scope, rest) ← bracketed? r
    return { host := .v6 pieces, scope, port := ← port? rest }
  | cs =>
    match IpAddress.bytes? (cs.takeWhile (· ≠ ':')) with
    | some [a, b, c, d] => do
      return { host := .v4 a b c d, port := ← port? (cs.dropWhile (· ≠ ':')) }
    | _ => none

/-- A socket in its usual form. -/
def text (s : SocketAddress) : String :=
  match s.host with
  | .v4 .. => s!"{s.host.text}:{s.port}"
  | .v6 _ =>
    let scope := if s.scope = 0 then "" else s!"%{s.scope}"
    s!"[{s.host.text}{scope}]:{s.port}"

/-- The usual form of the socket that a text names. -/
def canonical? (s : String) : Option String := (parse? s).map text

end SocketAddress

/-- The socket that a server listens at, kept as its usual form. -/
structure ListenAddress where
  text : String
  isCanonical : SocketAddress.canonical? text = some text

namespace ListenAddress

instance : DecidableEq ListenAddress := fun a b =>
  if h : a.text = b.text then isTrue (by cases a; cases b; simp_all)
  else isFalse (fun e => h (e ▸ rfl))

/-- The socket that a text names, in whatever form. -/
def parse? (s : String) : Option ListenAddress :=
  match SocketAddress.canonical? s with
  | none => none
  | some t => if h : SocketAddress.canonical? t = some t then some ⟨t, h⟩ else none

end ListenAddress

end Onboarding
