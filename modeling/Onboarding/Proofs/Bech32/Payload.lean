import Mathlib.Algebra.Group.Nat.Defs
import Mathlib.Data.List.Basic
import Mathlib.Data.List.Induction
import Onboarding.Bech32
/-!
# Payload — bytes cut into groups, and what groups are cut from

Bytes and groups are both read as the bits that they spell (`spell`), eight and five at a
time. The groups of a payload spell its bits and fewer than five zeros behind them, and no
other groups do (`payloadGroups_eq_iff`). So the groups that `payloadLength?` takes are those
of payloads (`payloadLength?_eq_some_iff`), and a payload is told from its groups.
-/

namespace Onboarding

namespace Bech32

/-! ## Bits of a number -/

theorem length_bitsOf (k n : Nat) : (bitsOf k n).length = k := by
  simp [bitsOf]

theorem bitsOf_succ (k n : Nat) : bitsOf (k + 1) n = bitsOf k (n / 2) ++ [n.testBit 0] := by
  simp [bitsOf, List.range_succ_eq_map, Nat.testBit_succ]

theorem ofBits_concat (bs : List Bool) (b : Bool) : ofBits (bs ++ [b]) = 2 * ofBits bs + b.toNat :=
  List.foldl_concat _ _ _ _

theorem ofBits_lt (bs : List Bool) : ofBits bs < 2 ^ bs.length := by
  induction bs using List.reverseRecOn with
  | nil => decide
  | append_singleton bs b ih =>
    have hb : b.toNat < 2 := Bool.toNat_lt b
    rw [ofBits_concat, List.length_append, List.length_singleton, Nat.pow_succ]
    omega

theorem bitsOf_ofBits (bs : List Bool) : bitsOf bs.length (ofBits bs) = bs := by
  induction bs using List.reverseRecOn with
  | nil => rfl
  | append_singleton bs b ih =>
    have hb : b.toNat < 2 := Bool.toNat_lt b
    have hrest : (2 * ofBits bs + b.toNat) / 2 = ofBits bs := by omega
    have hlast : (2 * ofBits bs + b.toNat).testBit 0 = b := by
      cases b <;> simp [Nat.testBit_zero]
    rw [ofBits_concat, List.length_append, List.length_singleton, bitsOf_succ, hrest, hlast, ih]

theorem ofBits_bitsOf {k n : Nat} (h : n < 2 ^ k) : ofBits (bitsOf k n) = n := by
  induction k generalizing n with
  | zero =>
    rw [Nat.pow_zero] at h
    rw [show n = 0 by omega]
    rfl
  | succ k ih =>
    have hbit : (n.testBit 0).toNat = n % 2 := by
      rw [Nat.testBit_zero]
      rcases Nat.mod_two_eq_zero_or_one n with h | h <;> simp [h]
    rw [bitsOf_succ, ofBits_concat, ih (by omega), hbit]
    omega

/-- The lowest bits are all zero exactly for the multiples of a power of two. -/
theorem replicate_suffix_bitsOf {p k : Nat} (hp : p ≤ k) (n : Nat) :
    List.replicate p false <:+ bitsOf k n ↔ n % 2 ^ p = 0 := by
  induction p generalizing k n with
  | zero => simp [Nat.mod_one]
  | succ p ih =>
    obtain ⟨k, rfl⟩ : ∃ j, k = j + 1 := ⟨k - 1, by omega⟩
    have hmod : n % 2 ^ (p + 1) = n % 2 + 2 * (n / 2 % 2 ^ p) := by
      rw [Nat.pow_succ, Nat.mul_comm, Nat.mod_mul]
    have hbit : n.testBit 0 = false ↔ n % 2 = 0 := by
      rw [Nat.testBit_zero]
      rcases Nat.mod_two_eq_zero_or_one n with h | h <;> simp [h]
    rw [bitsOf_succ, List.replicate_succ', List.suffix_concat_iff, hmod]
    constructor
    · rintro (hnil | ⟨bs, hbs, hsuffix⟩)
      · simp at hnil
      · obtain ⟨rfl, hlast⟩ := List.append_inj' hbs rfl
        have hhigh := (ih (by omega) (n / 2)).1 hsuffix
        have hlow := hbit.1 (List.singleton_injective hlast).symm
        omega
    · intro hzero
      have hhigh := (ih (k := k) (by omega) (n / 2)).2 (by omega)
      exact .inr ⟨_, by rw [hbit.2 (by omega)], hhigh⟩

/-! ## Bits of many numbers -/

/-- The bits of numbers, `k` for each. -/
def spell (k : Nat) (ns : List Nat) : List Bool := ns.flatMap (bitsOf k)

theorem length_spell (k : Nat) (ns : List Nat) : (spell k ns).length = k * ns.length := by
  induction ns with
  | nil => rfl
  | cons n ns ih =>
    rw [spell, List.flatMap_cons, List.length_append, length_bitsOf, List.length_cons,
      Nat.mul_succ, ← ih, Nat.add_comm]
    rfl

/-- Numbers of `k` bits are told from what they spell. -/
theorem spell_inj {k : Nat} (hk : 0 < k) {ns ms : List Nat} (hns : ∀ n ∈ ns, n < 2 ^ k)
    (hms : ∀ m ∈ ms, m < 2 ^ k) (h : spell k ns = spell k ms) : ns = ms := by
  have hlength : ns.length = ms.length := by
    have hbits := congrArg List.length h
    rw [length_spell, length_spell] at hbits
    exact Nat.eq_of_mul_eq_mul_left hk hbits
  induction ns generalizing ms with
  | nil => exact (List.length_eq_zero_iff.1 hlength.symm).symm
  | cons n ns ih =>
    cases ms with
    | nil => cases hlength
    | cons m ms =>
      rw [List.forall_mem_cons] at hns hms
      obtain ⟨hhead, htail⟩ := List.append_inj (show bitsOf k n ++ spell k ns = _ from h)
        (by rw [length_bitsOf, length_bitsOf])
      have hnm : n = m := by
        rw [← ofBits_bitsOf hns.1, hhead, ofBits_bitsOf hms.1]
      rw [hnm, ih hns.2 hms.2 htail (Nat.succ.inj hlength)]

/-- Bits are spelled by numbers if they can be cut evenly. -/
theorem exists_spell {k n : Nat} {bs : List Bool} (h : bs.length = k * n) :
    ∃ ns, ns.length = n ∧ (∀ m ∈ ns, m < 2 ^ k) ∧ spell k ns = bs := by
  induction n generalizing bs with
  | zero => exact ⟨[], rfl, nofun, (List.length_eq_zero_iff.1 h).symm⟩
  | succ n ih =>
    rw [Nat.mul_succ] at h
    have hdrop : (bs.drop k).length = k * n := by rw [List.length_drop]; omega
    obtain ⟨ns, hn, hns, hspell⟩ := ih hdrop
    have htake : (bs.take k).length = k := by rw [List.length_take]; omega
    refine ⟨ofBits (bs.take k) :: ns, by rw [List.length_cons, hn], ?_, ?_⟩
    · refine List.forall_mem_cons.2 ⟨?_, hns⟩
      have hlt := ofBits_lt (bs.take k)
      rwa [htake] at hlt
    · have hhead := bitsOf_ofBits (bs.take k)
      rw [htake] at hhead
      rw [spell, List.flatMap_cons, hhead]
      exact (congrArg (bs.take k ++ ·) hspell).trans (List.take_append_drop k bs)

/-! ## Groups and bytes -/

/-- The bits of groups. -/
def groupsBits (gs : List Group) : List Bool := spell 5 (gs.map BitVec.toNat)

/-- The bits of a payload. -/
def payloadBits (payload : List UInt8) : List Bool := spell 8 (payload.map UInt8.toNat)

theorem length_groupsBits (gs : List Group) : (groupsBits gs).length = 5 * gs.length := by
  rw [groupsBits, length_spell, List.length_map]

theorem length_payloadBits (payload : List UInt8) :
    (payloadBits payload).length = 8 * payload.length := by
  rw [payloadBits, length_spell, List.length_map]

theorem groupsBits_injective : Function.Injective groupsBits := by
  intro gs hs h
  have hlt : ∀ ks : List Group, ∀ n ∈ ks.map BitVec.toNat, n < 2 ^ 5 := by
    intro ks n hn
    obtain ⟨g, -, rfl⟩ := List.mem_map.1 hn
    exact g.isLt
  have hvalues := spell_inj (by decide) (hlt gs) (hlt hs) h
  exact List.map_injective_iff.2 (fun _ _ => BitVec.eq_of_toNat_eq) hvalues

theorem payloadBits_injective : Function.Injective payloadBits := by
  intro payload other h
  have hlt : ∀ bs : List UInt8, ∀ n ∈ bs.map UInt8.toNat, n < 2 ^ 8 := by
    intro bs n hn
    obtain ⟨b, -, rfl⟩ := List.mem_map.1 hn
    exact b.toNat_lt
  have hvalues := spell_inj (by decide) (hlt payload) (hlt other) h
  exact List.map_injective_iff.2 (fun _ _ => UInt8.toNat_inj.1) hvalues

/-- Whole bytes of bits are a payload. -/
theorem exists_payloadBits {bs : List Bool} {n : Nat} (h : bs.length = 8 * n) :
    ∃ payload : List UInt8, payload.length = n ∧ payloadBits payload = bs := by
  obtain ⟨ns, hn, hns, hspell⟩ := exists_spell h
  refine ⟨ns.map UInt8.ofNat, by rw [List.length_map, hn], ?_⟩
  have hvalues : (ns.map UInt8.ofNat).map UInt8.toNat = ns := by
    rw [List.map_map, List.map_congr_left fun m hm => ?_, List.map_id]
    exact UInt8.toNat_ofNat_of_lt' (hns m hm)
  rw [payloadBits, hvalues, hspell]

/-- **Groups spell the bits that they were cut from**, and the zeros that the last one was
filled with. -/
theorem groupsBits_groupBits (bs : List Bool) :
    ∃ n < 5, groupsBits (groupBits bs) = bs ++ List.replicate n false := by
  fun_induction groupBits bs with
  | case1 => exact ⟨0, by decide, rfl⟩
  | case2 b bs five ih =>
    obtain ⟨n, hn, hrest⟩ := ih
    have hfive : five.length = min 5 (bs.length + 1) := List.length_take
    have hfilled : (five ++ List.replicate (5 - five.length) false).length = 5 := by
      rw [List.length_append, List.length_replicate]
      omega
    -- the first group holds the first bits, filled up
    have hfirst : bitsOf 5
        (BitVec.ofNat 5 (ofBits (five ++ List.replicate (5 - five.length) false))).toNat =
          five ++ List.replicate (5 - five.length) false := by
      have hlt := ofBits_lt (five ++ List.replicate (5 - five.length) false)
      have hbits := bitsOf_ofBits (five ++ List.replicate (5 - five.length) false)
      rw [hfilled] at hlt hbits
      rw [BitVec.toNat_ofNat, Nat.mod_eq_of_lt hlt, hbits]
    have hsplit : five ++ bs.drop 4 = b :: bs := List.take_append_drop 5 (b :: bs)
    have hbits : groupsBits (BitVec.ofNat 5 (ofBits (five ++
        List.replicate (5 - five.length) false)) :: groupBits (bs.drop 4)) =
          five ++ List.replicate (5 - five.length) false ++ groupsBits (groupBits (bs.drop 4)) :=
      congrArg (· ++ _) hfirst
    rw [hbits]
    rcases Nat.lt_or_ge five.length 5 with hshort | hfull
    · -- nothing is left behind a group that was filled up
      have hdrop : bs.drop 4 = [] := List.drop_eq_nil_of_le (by omega)
      rw [hdrop, List.append_nil] at hsplit
      refine ⟨5 - five.length, by omega, ?_⟩
      rw [hdrop, ← hsplit]
      simp [groupBits, groupsBits, spell]
    · refine ⟨n, hn, ?_⟩
      rw [hrest, ← hsplit, show 5 - five.length = 0 by omega, List.replicate_zero,
        List.append_nil, List.append_assoc]

/-- **The groups of a payload** are those that spell its bits, and less than a group of
zeros. -/
theorem payloadGroups_eq_iff {payload : List UInt8} {gs : List Group} :
    payloadGroups payload = gs ↔
      ∃ n < 5, groupsBits gs = payloadBits payload ++ List.replicate n false := by
  have hgroups : payloadGroups payload = groupBits (payloadBits payload) := by
    rw [payloadGroups, payloadBits, spell, List.flatMap_map]
  obtain ⟨n, hn, hbits⟩ := groupsBits_groupBits (payloadBits payload)
  rw [hgroups]
  constructor
  · rintro rfl
    exact ⟨n, hn, hbits⟩
  · rintro ⟨m, hm, hgs⟩
    -- both are cut from whole groups, so that as many zeros are missing
    have hlength := congrArg List.length hbits
    have hlength' := congrArg List.length hgs
    rw [length_groupsBits, List.length_append, List.length_replicate] at hlength hlength'
    have hnm : n = m := by omega
    rw [hnm, ← hgs] at hbits
    exact groupsBits_injective hbits

/-- **A payload is told from its groups.** -/
theorem payloadGroups_injective : Function.Injective payloadGroups := by
  intro payload other h
  obtain ⟨n, hn, hbits⟩ := payloadGroups_eq_iff.1 h
  obtain ⟨m, hm, hbits'⟩ := payloadGroups_eq_iff.1 (rfl : payloadGroups other = _)
  rw [hbits'] at hbits
  have hlength := congrArg List.length hbits
  rw [List.length_append, List.length_append, List.length_replicate, List.length_replicate,
    length_payloadBits, length_payloadBits] at hlength
  have hnm : n = m := by omega
  rw [hnm] at hbits
  exact (payloadBits_injective (List.append_cancel_right hbits)).symm

/-! ## Lengths -/

/-- Whether the last bits of groups are zeros can be told from the last group. -/
theorem replicate_suffix_groupsBits (gs : List Group) (last : Group) {m : Nat} (hm : m ≤ 5) :
    List.replicate m false <:+ groupsBits (gs ++ [last]) ↔ last.toNat % 2 ^ m = 0 := by
  have hbits : groupsBits (gs ++ [last]) = groupsBits gs ++ bitsOf 5 last.toNat := by
    simp [groupsBits, spell]
  rw [hbits, ← replicate_suffix_bitsOf hm]
  constructor
  · intro h
    refine List.suffix_of_suffix_length_le h (List.suffix_append _ _) ?_
    rw [List.length_replicate, length_bitsOf]
    exact hm
  · exact fun h => h.trans (List.suffix_append _ _)

/-- A length is found where the bits left over are less than a group, and zeros. -/
theorem payloadLength?_eq_some {gs : List Group} {n : Nat} :
    payloadLength? gs = some n ↔ gs ≠ [] ∧ ∃ m < 5, 5 * gs.length = 8 * n + m ∧
      List.replicate m false <:+ groupsBits gs := by
  rcases List.eq_nil_or_concat' gs with rfl | ⟨front, last, rfl⟩
  · simp [payloadLength?]
  unfold payloadLength?
  generalize hbits : (front ++ [last]).length * 5 = bits
  simp only [List.getLast?_concat, Nat.one_shiftLeft]
  constructor
  · intro h
    split at h
    · cases h
    split at h
    · cases h
      have hsuffix := (replicate_suffix_groupsBits front last (m := bits % 8) (by omega)).2 ‹_›
      exact ⟨List.concat_ne_nil _ _, bits % 8, by omega, by omega, hsuffix⟩
    · cases h
  · rintro ⟨-, m, hm, hlength, hsuffix⟩
    have hpadding : bits % 8 = m := by omega
    have hzero := (replicate_suffix_groupsBits front last (by omega)).1 hsuffix
    rw [hpadding, if_neg (by omega), if_pos hzero]
    exact congrArg some (by omega)

/-- **The lengths that are found** are those of the payloads that groups are cut from. -/
theorem payloadLength?_eq_some_iff {gs : List Group} {n : Nat} :
    payloadLength? gs = some n ↔
      gs ≠ [] ∧ ∃ payload : List UInt8, payload.length = n ∧ payloadGroups payload = gs := by
  rw [payloadLength?_eq_some]
  constructor
  · rintro ⟨hne, m, hm, hlength, bs, hbs⟩
    have hwhole : bs.length = 8 * n := by
      have hboth := congrArg List.length hbs
      rw [List.length_append, List.length_replicate, length_groupsBits] at hboth
      omega
    obtain ⟨payload, hn, rfl⟩ := exists_payloadBits hwhole
    exact ⟨hne, payload, hn, payloadGroups_eq_iff.2 ⟨m, hm, hbs.symm⟩⟩
  · rintro ⟨hne, payload, rfl, hgroups⟩
    obtain ⟨m, hm, hbits⟩ := payloadGroups_eq_iff.1 hgroups
    have hlength := congrArg List.length hbits
    rw [length_groupsBits, List.length_append, List.length_replicate, length_payloadBits] at hlength
    exact ⟨hne, m, hm, hlength, payloadBits payload, hbits.symm⟩

end Bech32

end Onboarding
