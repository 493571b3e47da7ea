import Onboarding.Text.Hex
/-!
# Percent escapes — bytes written as a percent sign and two digits
-/

namespace Onboarding

namespace Percent

/-- Bytes with escapes resolved; a percent sign without two digits stays as it is. -/
def decode : List UInt8 → List UInt8
  | a :: b :: c :: r =>
    match a == 0x25, Hex.value (Char.ofNat b.toNat), Hex.value (Char.ofNat c.toNat) with
    | true, some x, some y => UInt8.ofNat (16 * x + y) :: decode r
    | _, _, _ => a :: decode (b :: c :: r)
  | rest => rest

end Percent

end Onboarding
