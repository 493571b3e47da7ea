/-!
# Double range — decimals that no double comes near

A reader of numbers refuses a decimal that rounds beyond the largest double.
`beyondDouble` decides that in natural numbers, and looks at the size of the exponent
before it raises ten to it.
-/

namespace Onboarding

/-- The value that digits spell. -/
def digitsValue (ds : List Char) : Nat := ds.foldl (fun n d => 10 * n + (d.toNat - 48)) 0

/-- The least number that rounds beyond the largest double. -/
def doubleLimit : Nat := (1 <<< 1024) - (1 <<< 970)

/-- Whether `mantissa * 10 ^ exponent` is beyond the range of doubles. -/
def beyondDouble (mantissa : Nat) (exponent : Int) : Bool :=
  if mantissa = 0 then false
  else if 0 ≤ exponent then
    400 < exponent || doubleLimit ≤ mantissa * Nat.pow 10 exponent.toNat
  else doubleLimit * Nat.pow 10 (min (-exponent).toNat (Nat.log2 mantissa + 1)) ≤ mantissa

end Onboarding
