/-!
# Hexadecimal — bytes as pairs of lowercase digits

`encode` writes each byte as two digits, the high half first; `decode` reads
pairs of digits of either case and refuses everything else.
-/

namespace Onboarding

namespace Hex

/-- The lowercase digit of a value below sixteen. -/
def digit (n : Nat) : Char :=
  if n < 10 then Char.ofNat (48 + n) else Char.ofNat (87 + n)

/-- The value of a digit of either case. -/
def value (c : Char) : Option Nat :=
  if '0' ≤ c ∧ c ≤ '9' then some (c.toNat - 48)
  else if 'a' ≤ c ∧ c ≤ 'f' then some (c.toNat - 87)
  else if 'A' ≤ c ∧ c ≤ 'F' then some (c.toNat - 55)
  else none

/-- Two digits per byte, the high half first. -/
def encode (bs : List UInt8) : String :=
  String.ofList (bs.flatMap fun b => [digit (b.toNat / 16), digit (b.toNat % 16)])

/-- The bytes of a list of digit pairs. -/
def decodeChars : List Char → Option (List UInt8)
  | [] => some []
  | [_] => none
  | a :: b :: r => do
    let x ← value a
    let y ← value b
    let bs ← decodeChars r
    return UInt8.ofNat (16 * x + y) :: bs

/-- The bytes that a hexadecimal text spells. -/
def decode (s : String) : Option (List UInt8) := decodeChars s.toList

/-- The digits of a number without leading zeros, as escapes write it. -/
def ofNat (n : Nat) : String := String.ofList (Nat.toDigits 16 n)

end Hex

end Onboarding
