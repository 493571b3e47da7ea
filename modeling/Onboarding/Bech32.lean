import Onboarding.Text.Utf8
import Onboarding.Text.Split
import Onboarding.Text.Quoted
/-!
# Bech32 — wallet addresses as a prefix, a payload and a checksum

An address is a human-readable prefix, the character `1`, and a data part in an
alphabet of 32 characters, each of which stands for five bits. The last six of
them are a checksum over the prefix and the rest. `encode` writes the address of a
payload, and `validate` checks that a text is the address of an account, whose
payload has 20 bytes, or of a module or contract, whose payload has 32.

The checksum is computed in `BitVec 30`, whose shift to the left drops exactly the
five bits that the generators are chosen by.
-/

namespace Onboarding

/-- Why a text is not an address. -/
inductive AddressError where
  | missingSeparator
  | wrongPrefix (expected found : String)
  | invalidChar (c : Char)
  | mixedCase
  | invalidChecksum
  | invalidLength (length : Nat)
deriving DecidableEq, Repr

/-- The wording of each reason. -/
def AddressError.message : AddressError → String
  | .missingSeparator => "address has no separator"
  | .wrongPrefix expected found => s!"address prefix is {found}, expected {expected}"
  | .invalidChar c => "invalid character " ++ Quoted.char c ++ " in address"
  | .mixedCase => "address mixes upper and lower case"
  | .invalidChecksum => "address checksum is invalid"
  | .invalidLength n => s!"invalid address length: {n}"

namespace Bech32

/-- Five bits, as one character of the data part holds them. -/
abbrev Group := BitVec 5

/-- The characters of the data part, in the order of their values. -/
def alphabet : List Char := "qpzry9x8gf2tvdw0s3jn54khce6mua7l".toList

/-- The character of a group. -/
def letter (g : Group) : Char := alphabet.getD g.toNat 'q'

/-- The group of a character of the alphabet. -/
def group? (c : Char) : Option Group :=
  (alphabet.idxOf? c).map (BitVec.ofNat 5)

/-- What each of the five highest bits of the checksum adds when it is shifted
out. -/
def generators : List (BitVec 30) :=
  [0x3b6a57b2, 0x26508e6d, 0x1ea119fa, 0x3d4233dd, 0x2a1462b3]

/-- The sum of the generators that the five highest bits choose. -/
def reduction (s : BitVec 30) : BitVec 30 :=
  (generators.zipIdx.map fun gi => if s.getLsbD (25 + gi.2) then gi.1 else 0).foldl (· ^^^ ·) 0

/-- One group mixed into the checksum. -/
def step (s : BitVec 30) (g : Group) : BitVec 30 :=
  (s <<< 5) ^^^ g.setWidth 30 ^^^ reduction s

/-- The checksum of a list of groups, from the state `s`. -/
def polymodFrom (s : BitVec 30) (gs : List Group) : BitVec 30 := gs.foldl step s

/-- The checksum of a list of groups. -/
def polymod (gs : List Group) : BitVec 30 := polymodFrom 1 gs

/-- The groups that a prefix stands for: the high bits of its bytes, a zero, and
their low bits. -/
def expandPrefix (pre : String) : List Group :=
  let bs := Utf8.bytes pre
  bs.map (fun b => BitVec.ofNat 5 (b.toNat / 32)) ++ [0] ++
    bs.map (fun b => BitVec.ofNat 5 (b.toNat % 32))

/-- Groups of the checksum. -/
def checksumLength : Nat := 6

/-- The longest address, in bytes. -/
def maxLength : Nat := 90

/-- The payload bytes that a list of groups carries, or nothing where the bits left
over are a whole group or not all zero. -/
def payloadLength? (gs : List Group) : Option Nat :=
  let bits := gs.length * 5
  let padding := bits % 8
  if 5 ≤ padding then none
  else match gs.getLast? with
    | none => none
    | some last => if last.toNat % (1 <<< padding) = 0 then some (bits / 8) else none

/-- Whether an account or a contract can have a payload of this length. -/
def isPayloadLength (n : Nat) : Bool := n == 20 || n == 32

/-- The groups of a data part, or the first character outside the alphabet. -/
def groups : List Char → Except AddressError (List Group)
  | [] => .ok []
  | c :: r =>
    match group? c with
    | none => .error (.invalidChar c)
    | some g => (groups r).map (g :: ·)

/-- Checks that `address` is an address with the prefix `expected`. Letters may all
be small or all be capital. The first fault in this order is reported: length, case,
separator, prefix, room for a checksum, alphabet, checksum, payload. -/
def validate (address expected : String) : Except AddressError Unit :=
  let length := byteLength address
  let cs := address.toList
  if maxLength < length then .error (.invalidLength length)
  else if cs.any Char.isLower && cs.any Char.isUpper then .error .mixedCase
  else match splitLast? '1' (cs.map Char.toLower) with
    | none => .error .missingSeparator
    | some (pre, data) =>
      if String.ofList pre ≠ expected then .error (.wrongPrefix expected (String.ofList pre))
      else if byteLength (String.ofList data) ≤ checksumLength then .error (.invalidLength length)
      else match groups data with
        | .error e => .error e
        | .ok gs =>
          if polymod (expandPrefix expected ++ gs) ≠ 1 then .error .invalidChecksum
          else match payloadLength? (gs.take (gs.length - checksumLength)) with
            | some n => if isPayloadLength n then .ok () else .error (.invalidLength length)
            | none => .error (.invalidLength length)

/-! ## Writing addresses -/

/-- The bits of a number, the highest of `k` first. -/
def bitsOf (k n : Nat) : List Bool := ((List.range k).map n.testBit).reverse

/-- The number that bits spell, highest first. -/
def ofBits (bs : List Bool) : Nat := bs.foldl (fun n b => 2 * n + b.toNat) 0

/-- Bits cut into groups of five, the last one filled with zeros. -/
def groupBits : List Bool → List Group
  | [] => []
  | b :: bs =>
    let five := ((b :: bs).take 5)
    BitVec.ofNat 5 (ofBits (five ++ List.replicate (5 - five.length) false)) ::
      groupBits (bs.drop 4)
termination_by bs => bs.length
decreasing_by
  simp only [List.length_drop, List.length_cons]
  omega

/-- The groups of a payload. -/
def payloadGroups (payload : List UInt8) : List Group :=
  groupBits (payload.flatMap fun b => bitsOf 8 b.toNat)

/-- The six groups that bring the checksum of a prefix and its data to one. -/
def checksum (pre : String) (gs : List Group) : List Group :=
  let s := polymod (expandPrefix pre ++ gs ++ List.replicate checksumLength 0) ^^^ 1
  (List.range checksumLength).map fun i => (s >>> (5 * (5 - i))).setWidth 5

/-- The address of a payload. -/
def encode (pre : String) (payload : List UInt8) : String :=
  let gs := payloadGroups payload
  pre ++ "1" ++ String.ofList ((gs ++ checksum pre gs).map letter)

end Bech32

end Onboarding
