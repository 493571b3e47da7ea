/-!
# Token amounts — whole numbers of the chain's smallest unit

Amounts are 64-bit words. There are three additions: `add?` and `checkedAdd?`
refuse a sum that does not fit, and `saturatingAdd` stops at the largest amount.
-/

namespace Onboarding

/-- An amount of the chain's base token, in its smallest unit. -/
structure TokenAmount where
  units : UInt64
deriving DecidableEq, Repr, Inhabited

namespace TokenAmount

/-- No tokens. -/
def zero : TokenAmount := ⟨0⟩

/-- The largest amount. -/
def max : TokenAmount := ⟨0xFFFFFFFFFFFFFFFF⟩

/-- Whether an amount is nothing. -/
def isZero (a : TokenAmount) : Bool := a.units == 0

/-- The sum, where it fits. -/
def checkedAdd? (a b : TokenAmount) : Option TokenAmount :=
  if a.units.toNat + b.units.toNat < UInt64.size then some ⟨a.units + b.units⟩ else none

/-- The sum, or the largest amount where the sum does not fit. -/
def saturatingAdd (a b : TokenAmount) : TokenAmount := (a.checkedAdd? b).getD max

/-- The decimal digits of an amount. -/
def text (a : TokenAmount) : String := toString a.units.toNat

/-- **A saturating sum is the sum, cut off at the largest amount.** -/
theorem toNat_saturatingAdd (a b : TokenAmount) :
    (a.saturatingAdd b).units.toNat = min max.units.toNat (a.units.toNat + b.units.toNat) := by
  have hmax : max.units.toNat = UInt64.size - 1 := by decide
  unfold saturatingAdd checkedAdd?
  by_cases h : a.units.toNat + b.units.toNat < UInt64.size
  · rw [if_pos h, Nat.min_eq_right (by omega)]
    exact (UInt64.toNat_add ..).trans (Nat.mod_eq_of_lt h)
  · rw [if_neg h, Nat.min_eq_left (by omega)]
    rfl

end TokenAmount

end Onboarding
