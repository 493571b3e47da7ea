/-!
# Decimals — floating-point numbers in the fewest digits

A number is written with the digits of the coarsest decimal grid that has a point
which rounds to it, in positional notation and without a fraction where there is
none. Of two such points the nearer is taken, and the upper one where both are
equally near.
-/

namespace Onboarding

namespace Decimal

/-- A positive number `mantissa * 2 ^ exponent`. The interval of numbers that round to
it reaches half a unit to either side, but only a quarter downwards where the numbers
below lie twice as close. -/
structure Binary where
  mantissa : Nat
  exponent : Int
  closeBelow : Bool

/-- The leading bit of a mantissa, which the bits of a float leave out. -/
def leadingBit : Nat := 1 <<< 52

/-- The number that the bits of a positive float stand for. -/
def Binary.ofBits (bits : Nat) : Binary :=
  let fraction : Nat := bits % leadingBit
  let biased : Nat := bits / leadingBit
  if biased = 0 then ⟨fraction, -1074, false⟩
  else ⟨leadingBit + fraction, (biased : Int) - 1075, fraction == 0 && 1 < biased⟩

/-- Digits and the power of ten they are multiplied by. -/
structure Digits where
  digits : Nat
  exponent : Int

/-- Four times a number and the ends of its interval, as integers over a common
denominator, for a grid of the width `10 ^ k`. -/
structure Scaled where
  value : Nat
  low : Nat
  high : Nat
  /-- The width of the grid. -/
  step : Nat

/-- A number scaled for the grid of width `10 ^ k`. -/
def Binary.scale (b : Binary) (k : Int) : Scaled :=
  let e := b.exponent - 2
  let unit := Nat.pow 10 (-k).toNat <<< e.toNat
  let value := 4 * b.mantissa * unit
  ⟨value, value - (if b.closeBelow then 1 else 2) * unit, value + 2 * unit,
    Nat.pow 10 k.toNat <<< (-e).toNat⟩

/-- The multiple of the grid that rounds to the number and is nearest to it. -/
def Binary.onGrid? (b : Binary) (k : Int) : Option Digits :=
  let s := b.scale k
  let closed := b.mantissa % 2 == 0
  let rounds (x : Nat) : Bool := if closed then s.low ≤ x && x ≤ s.high else s.low < x && x < s.high
  let below := s.value / s.step
  let above := below + 1
  let d :=
    if rounds (below * s.step) then
      if rounds (above * s.step) && s.value - below * s.step ≥ above * s.step - s.value then
        some above
      else some below
    else if rounds (above * s.step) then some above
    else none
  d.map fun d => ⟨d, k⟩

/-- The first grid, from the width `10 ^ k` down, that has a point for the number. -/
def Binary.shortestFrom (b : Binary) (k : Int) : Nat → Digits
  | 0 => ⟨0, 0⟩
  | fuel + 1 => (b.onGrid? k).getD (b.shortestFrom (k - 1) fuel)

/-- Grids between the largest and the smallest float. -/
def gridCount : Nat := 700

/-- The digits of a number. -/
def Binary.shortest (b : Binary) : Digits := b.shortestFrom 310 gridCount

/-- Digits in positional notation. -/
def Digits.text (d : Digits) : String :=
  let ds := Nat.toDigits 10 d.digits
  if 0 ≤ d.exponent then String.ofList (ds ++ List.replicate d.exponent.toNat '0')
  else
    let places := (-d.exponent).toNat
    let padded := List.replicate (places + 1 - ds.length) '0' ++ ds
    let whole := padded.length - places
    String.ofList (padded.take whole ++ '.' :: padded.drop whole)

/-- A float in the fewest digits. -/
def text (x : Float) : String :=
  let bits := x.toBits.toNat
  let magnitude := bits % 0x8000000000000000
  if x.isNaN then "NaN"
  else
    let unsigned :=
      if x.isInf then "inf"
      else if magnitude = 0 then "0"
      else (Binary.ofBits magnitude).shortest.text
    if bits = magnitude then unsigned else "-" ++ unsigned

end Decimal

end Onboarding
