import Onboarding.Text.Hex
import Onboarding.Text.Utf8
/-!
# Randomness — a source that can be scripted, and the codes drawn from it

A draw asks the source for some bytes. The source follows a script: an entry spells
the bytes, which are repeated or cut to the length asked for, or makes the draw fail,
or leaves it to the number of the draw, counted from one, which is also what an empty
script does. Codes are drawn bytes in hexadecimal.
-/

namespace Onboarding

/-- An entry of a script. -/
inductive Draw where
  /-- These bytes, repeated or cut. -/
  | bytes (pattern : List UInt8)
  /-- The number of the draw. -/
  | counter
  /-- The source fails. -/
  | unavailable
deriving DecidableEq, Repr, Inhabited

/-- A source of random bytes. -/
structure Randomness where
  script : List Draw := []
  /-- Draws made so far. -/
  drawn : Nat := 0
deriving DecidableEq, Repr, Inhabited

/-- The source failed. -/
structure RandomFault where
  reason : String
deriving DecidableEq, Repr

/-- The wording of a failure of the source. -/
def RandomFault.message (f : RandomFault) : String := "random source unavailable: " ++ f.reason

namespace Randomness

/-- A pattern repeated or cut to `n` bytes; zeros for an empty pattern. -/
def stretch (pattern : List UInt8) (n : Nat) : List UInt8 :=
  (List.range n).map fun i => pattern.getD (i % pattern.length) 0

/-- A number in `n` bytes, the highest first. -/
def bigEndian (n k : Nat) : List UInt8 :=
  (List.range n).map fun i => UInt8.ofNat (k / Nat.pow 256 (n - 1 - i))

/-- Draws `n` bytes. -/
def draw (n : Nat) (r : Randomness) : Except RandomFault (List UInt8) × Randomness :=
  let next := ⟨r.script.tail, r.drawn + 1⟩
  match r.script.headD .counter with
  | .bytes pattern => (.ok (stretch pattern n), next)
  | .counter => (.ok (bigEndian n (r.drawn + 1)), next)
  | .unavailable => (.error ⟨"unexpected situation"⟩, next)

/-- Draws a code of `n` bytes. -/
def drawCode (n : Nat) (r : Randomness) : Except RandomFault String × Randomness :=
  match r.draw n with
  | (.ok bytes, r') => (.ok (Hex.encode bytes), r')
  | (.error f, r') => (.error f, r')

/-- Bytes of a verification code. -/
def verificationLength : Nat := 16

/-- Bytes of a referral code. -/
def referralLength : Nat := 4

/-- Draws a code to be mailed. -/
def verificationCode : Randomness → Except RandomFault String × Randomness :=
  drawCode verificationLength

/-- Draws a code that an owner hands out. -/
def referralCode : Randomness → Except RandomFault String × Randomness :=
  drawCode referralLength

end Randomness

/-- Whether a submitted code is the stored one, byte for byte. Every byte is compared,
so the comparison does not show where they differ. -/
def codesMatch (stored submitted : String) : Bool :=
  let a := Utf8.bytes stored
  let b := Utf8.bytes submitted
  if a.length ≠ b.length then false
  else (List.zipWith (· ^^^ ·) a b).foldl (· ||| ·) 0 == 0

end Onboarding
