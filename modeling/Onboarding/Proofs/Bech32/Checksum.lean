import Mathlib.Algebra.Group.Nat.Defs
import Mathlib.Data.List.Basic
import Mathlib.Data.List.Induction
import Onboarding.Bech32
/-!
# Checksum — linear in its state, and made up for by its last groups

Mixing a group into the checksum is linear in exclusive or (`step_xor`), so the state that
a list of groups is reached from can be taken out of it (`polymodFrom_xor`). From zero, six
groups only move up: the state is then the number that they spell in base 32
(`toNat_polymodFrom`). So for whatever comes before there are exactly six groups that bring
the checksum to one, and `checksum` is what they are.
-/

namespace Onboarding

namespace Bech32

/-! ## Linearity -/

/-- What a bit chooses is linear. -/
theorem choose_xor (a b : Bool) (g : BitVec 30) :
    (if a ^^ b then g else 0) = (if a then g else 0) ^^^ (if b then g else 0) := by
  cases a <;> cases b <;> simp

theorem reduction_xor (s t : BitVec 30) :
    reduction (s ^^^ t) = reduction s ^^^ reduction t := by
  simp only [reduction, generators, List.zipIdx_cons, List.zipIdx_nil, List.map_cons,
    List.map_nil, List.foldl_cons, List.foldl_nil, BitVec.getLsbD_xor, choose_xor]
  ac_rfl

theorem step_xor (s t : BitVec 30) (g h : Group) :
    step (s ^^^ t) (g ^^^ h) = step s g ^^^ step t h := by
  unfold step
  rw [BitVec.shiftLeft_xor_distrib, BitVec.setWidth_xor, reduction_xor]
  ac_rfl

/-- **The state is taken out**: what it becomes through zeros is added at the end. -/
theorem polymodFrom_xor (s t : BitVec 30) (gs : List Group) :
    polymodFrom (s ^^^ t) gs =
      polymodFrom s (List.replicate gs.length 0) ^^^ polymodFrom t gs := by
  induction gs generalizing s t with
  | nil => rfl
  | cons g gs ih =>
    have hstep : step (s ^^^ t) g = step s 0 ^^^ step t g := by
      rw [← step_xor, show (0 : Group) ^^^ g = g from BitVec.zero_xor]
    show polymodFrom (step (s ^^^ t) g) gs = _
    rw [hstep, ih]
    rfl

/-- What a state becomes through groups is what it becomes through zeros, and the groups
from zero. -/
theorem polymodFrom_eq_xor (s : BitVec 30) (gs : List Group) :
    polymodFrom s gs =
      polymodFrom s (List.replicate gs.length 0) ^^^ polymodFrom 0 gs := by
  rw [← polymodFrom_xor, show s ^^^ 0 = s from BitVec.xor_zero]

theorem polymodFrom_append (s : BitVec 30) (gs hs : List Group) :
    polymodFrom s (gs ++ hs) = polymodFrom (polymodFrom s gs) hs :=
  List.foldl_append

/-! ## Groups as digits -/

/-- The number that groups spell in base 32, highest first. -/
def value (gs : List Group) : Nat := gs.foldl (fun n g => 32 * n + g.toNat) 0

theorem value_concat (gs : List Group) (g : Group) : value (gs ++ [g]) = 32 * value gs + g.toNat :=
  List.foldl_concat _ _ _ _

theorem value_lt (gs : List Group) : value gs < 32 ^ gs.length := by
  induction gs using List.reverseRecOn with
  | nil => decide
  | append_singleton gs g ih =>
    have hg : g.toNat < 32 := g.isLt
    rw [value_concat, List.length_append, List.length_singleton, Nat.pow_succ]
    omega

/-- As many groups that spell the same number are the same. -/
theorem value_inj {gs hs : List Group} (hlength : gs.length = hs.length)
    (h : value gs = value hs) : gs = hs := by
  induction gs using List.reverseRecOn generalizing hs with
  | nil => exact (List.length_eq_zero_iff.1 hlength.symm).symm
  | append_singleton gs g ih =>
    rcases List.eq_nil_or_concat' hs with rfl | ⟨hs, k, rfl⟩
    · simp at hlength
    · rw [List.length_append, List.length_append, List.length_singleton,
        List.length_singleton] at hlength
      rw [value_concat, value_concat] at h
      have hg : g.toNat < 32 := g.isLt
      have hk : k.toNat < 32 := k.isLt
      -- the last digit is the remainder by 32
      have hlast : g = k := BitVec.eq_of_toNat_eq (by omega)
      have hfront : gs = hs := ih (by omega) (by omega)
      rw [hfront, hlast]

/-! ## Six groups from zero -/

/-- Nothing is shifted out of a state with its five highest bits clear. -/
theorem reduction_eq_zero {s : BitVec 30} (h : s.toNat < 2 ^ 25) : reduction s = 0 := by
  have hbit : ∀ i, s.getLsbD (25 + i) = false := fun i =>
    Nat.testBit_lt_two_pow
      (Nat.lt_of_lt_of_le h (Nat.pow_le_pow_right (by decide) (Nat.le_add_right 25 i)))
  simp [reduction, generators, hbit]

/-- Such a state takes a group in as one more digit. -/
theorem toNat_step {s : BitVec 30} (h : s.toNat < 2 ^ 25) (g : Group) :
    (step s g).toNat = 32 * s.toNat + g.toNat := by
  have hg : g.toNat < 2 ^ 5 := g.isLt
  have hshift : (s <<< 5).toNat = 2 ^ 5 * s.toNat := by
    rw [BitVec.toNat_shiftLeft, Nat.shiftLeft_eq, Nat.mul_comm, Nat.mod_eq_of_lt (by omega)]
  have hwiden : (g.setWidth 30).toNat = g.toNat := by
    rw [BitVec.toNat_setWidth, Nat.mod_eq_of_lt (by omega)]
  unfold step
  rw [reduction_eq_zero h, show ∀ t : BitVec 30, t ^^^ 0 = t from fun _ => BitVec.xor_zero,
    BitVec.toNat_xor, hshift, hwiden]
  -- the digit falls on bits that the shift left clear
  refine Nat.eq_of_testBit_eq fun i => ?_
  rw [Nat.testBit_xor, Nat.testBit_two_pow_mul, show 32 = 2 ^ 5 from rfl,
    Nat.testBit_two_pow_mul_add _ hg]
  by_cases hi : i < 5
  · simp [hi, Nat.not_le.2 hi]
  · have hclear : g.toNat.testBit i = false :=
      Nat.testBit_lt_two_pow
        (Nat.lt_of_lt_of_le hg (Nat.pow_le_pow_right (by decide) (Nat.not_lt.1 hi)))
    simp [hi, Nat.not_lt.1 hi, hclear]

/-- **Six groups from zero** are the number that they spell. -/
theorem toNat_polymodFrom {gs : List Group} (h : gs.length ≤ checksumLength) :
    (polymodFrom 0 gs).toNat = value gs := by
  induction gs using List.reverseRecOn with
  | nil => rfl
  | append_singleton gs g ih =>
    rw [List.length_append, List.length_singleton, checksumLength] at h
    have hvalue := ih (by rw [checksumLength]; omega)
    have hlt : value gs < 2 ^ 25 :=
      Nat.lt_of_lt_of_le (value_lt gs)
        (Nat.pow_le_pow_right (by decide) (show gs.length ≤ 5 by omega))
    rw [polymodFrom_append, value_concat, ← hvalue]
    exact toNat_step (hvalue ▸ hlt) g

/-- The six groups of a state. -/
def digits (s : BitVec 30) : List Group :=
  (List.range checksumLength).map fun i => (s >>> (5 * (5 - i))).setWidth 5

theorem length_digits (s : BitVec 30) : (digits s).length = checksumLength := rfl

/-- The groups of a state lead to it. -/
theorem polymodFrom_digits (s : BitVec 30) : polymodFrom 0 (digits s) = s := by
  refine BitVec.eq_of_toNat_eq ?_
  have hs : s.toNat < 2 ^ 30 := s.isLt
  rw [toNat_polymodFrom (Nat.le_of_eq (length_digits s))]
  simp only [value, digits, checksumLength, List.range_succ, List.range_zero, List.nil_append,
    List.cons_append, List.map_cons, List.map_nil, List.foldl_cons, List.foldl_nil,
    BitVec.toNat_setWidth, BitVec.toNat_ushiftRight, Nat.shiftRight_eq_div_pow]
  omega

/-- **There is one way to spell a state** with six groups. -/
theorem polymodFrom_eq_iff {cs : List Group} (h : cs.length = checksumLength) (s : BitVec 30) :
    polymodFrom 0 cs = s ↔ cs = digits s := by
  constructor
  · rintro rfl
    refine value_inj (h.trans (length_digits _).symm) ?_
    rw [← toNat_polymodFrom (Nat.le_of_eq h), ← toNat_polymodFrom (Nat.le_of_eq (length_digits _)),
      polymodFrom_digits]
  · rintro rfl
    exact polymodFrom_digits s

/-! ## Checksums -/

theorem length_checksum (pre : String) (gs : List Group) :
    (checksum pre gs).length = checksumLength := rfl

/-- **A list of groups has one checksum.** -/
theorem polymod_append_eq_one_iff {pre : String} {gs cs : List Group}
    (h : cs.length = checksumLength) :
    polymod (expandPrefix pre ++ (gs ++ cs)) = 1 ↔ cs = checksum pre gs := by
  have hchecksum : checksum pre gs =
      digits (polymod (expandPrefix pre ++ gs ++ List.replicate checksumLength 0) ^^^ 1) := rfl
  have hsplit : polymod (expandPrefix pre ++ (gs ++ cs)) =
      polymod (expandPrefix pre ++ gs ++ List.replicate checksumLength 0) ^^^
        polymodFrom 0 cs := by
    unfold polymod
    rw [← List.append_assoc, polymodFrom_append, polymodFrom_append _ _ (List.replicate _ _), ← h,
      ← polymodFrom_eq_xor]
  rw [hchecksum, ← polymodFrom_eq_iff h, hsplit]
  constructor
  · intro hone
    rw [← hone, ← BitVec.xor_assoc, BitVec.xor_self, BitVec.zero_xor]
  · intro hcs
    rw [hcs, ← BitVec.xor_assoc, BitVec.xor_self, BitVec.zero_xor]

end Bech32

end Onboarding
