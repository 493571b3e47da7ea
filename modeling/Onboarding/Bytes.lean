/-!
# Bytes — numbers as little-endian byte strings

`leBytes k n` writes the low `8 * k` bits of `n` with the lowest byte first and
`leNat` reads a byte string of any length back. The main statements are that the
two undo each other: `leNat_leBytes` for numbers that fit and `leBytes_leNat`
for byte strings of the given length.
-/

namespace Onboarding

/-- The lowest `k` bytes of a number, lowest first. -/
def leBytes : Nat → Nat → List UInt8
  | 0, _ => []
  | k + 1, n => UInt8.ofNat (n % 256) :: leBytes k (n / 256)

/-- The number that a byte string spells, lowest byte first. -/
def leNat : List UInt8 → Nat
  | [] => 0
  | b :: r => b.toNat + 256 * leNat r

@[simp] theorem length_leBytes (k n : Nat) : (leBytes k n).length = k := by
  induction k generalizing n with
  | zero => rfl
  | succ k ih => simp [leBytes, ih]

/-- A byte string spells a number below `256` to its length. -/
theorem leNat_lt (bs : List UInt8) : leNat bs < Nat.pow 256 bs.length := by
  induction bs with
  | nil => simp [leNat]
  | cons b r ih =>
    have hb := b.toNat_lt
    simp only [Nat.pow_eq] at ih
    simp only [leNat, List.length_cons, Nat.pow_eq, Nat.pow_succ]
    omega

/-- **Reading undoes writing**, for a number that fits. -/
theorem leNat_leBytes {k n : Nat} (h : n < Nat.pow 256 k) : leNat (leBytes k n) = n := by
  induction k generalizing n with
  | zero => simp at h; simp [leBytes, leNat, h]
  | succ k ih =>
    have hq : n / 256 < Nat.pow 256 k := by
      simp only [Nat.pow_eq, Nat.pow_succ] at h ⊢
      omega
    have hm : n % 256 < 2 ^ 8 := Nat.mod_lt _ (by decide)
    simp only [leBytes, leNat, ih hq, UInt8.toNat_ofNat']
    omega

/-- **Writing undoes reading**, for a byte string of the width written. -/
theorem leBytes_leNat (bs : List UInt8) : leBytes bs.length (leNat bs) = bs := by
  induction bs with
  | nil => rfl
  | cons b r ih =>
    have hb := b.toNat_lt
    have hd : (b.toNat + 256 * leNat r) / 256 = leNat r := by omega
    have hm : (b.toNat + 256 * leNat r) % 256 = b.toNat := by omega
    simp [leBytes, leNat, hd, hm, ih]

end Onboarding
