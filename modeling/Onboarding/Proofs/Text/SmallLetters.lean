import Onboarding.Proofs.Text.Lowercase
/-!
# Small letters — they stay, and the case of ASCII is not looked at

What lower case makes of a character depends on the characters around it, so that lowering
twice is lowering once is not a matter of single characters alone. It comes down to one,
though: a small letter stays whatever stands around it (`stays_of_mem_lowerAt`), because no
small letter of a run is a capital one of any run (`misses_of_mem`). In the same way a letter
of ASCII is looked at for two properties only, and has them in either case
(`lowerFrom_map_toLower`).
-/

namespace Onboarding

namespace Lowercase

/-! ## Small letters are not capital -/

/-- The first small letter of a run. -/
def smallFirst (r : CaseRun) : Nat := (r.first + r.shift).toNat

/-- The last small letter of a run. -/
def smallLast (r : CaseRun) : Nat := (r.last + r.shift).toNat

/-- No small letter of the one run is a capital letter of the other: they lie apart, or the
small letters of the one lie between the capital letters of the other. It is tried on every
two runs, so it is made of comparisons that are quick to evaluate. -/
def misses (r q : CaseRun) : Bool :=
  (smallLast r).blt q.first || q.last.blt (smallFirst r) ||
    ((r.step % 2).beq 0 || r.first.beq r.last) && (q.step % 2).beq 0 &&
      ((smallFirst r + q.first) % 2).beq 1

/-- The capital dotted I, as if it were a run of its own. -/
def dottedRun : CaseRun := ⟨0x130, 0x130, 2, 0⟩

theorem misses_of_mem {r q : CaseRun} (hr : r ∈ lowerRuns) (hq : q ∈ dottedRun :: lowerRuns) :
    misses r q = true := by
  have hall : (lowerRuns.all fun r => (dottedRun :: lowerRuns).all (misses r)) = true := by
    decide +kernel
  exact List.all_eq_true.1 (List.all_eq_true.1 hall r hr) q hq

/-- The steps of a run keep the parity if they are even. -/
theorem even_of_inRun {n : Nat} {r : CaseRun} (h : inRun n r = true) (hstep : r.step % 2 = 0) :
    (n - r.first) % 2 = 0 := by
  simp only [inRun, Bool.and_eq_true, decide_eq_true_eq, beq_iff_eq] at h
  have hdvd : 2 ∣ r.step := Nat.dvd_of_mod_eq_zero hstep
  have hmod := Nat.mod_mod_of_dvd (n - r.first) hdvd
  rw [h.2] at hmod
  exact hmod.symm

theorem inRun_eq_false_of_misses {r q : CaseRun} (hr : SmallRun r) (h : misses r q = true)
    {n m : Nat} (hn : inRun n r = true) (hm : (m : Int) = n + r.shift) : inRun m q = false := by
  by_contra hq
  rw [Bool.not_eq_false] at hq
  have hmin := hr.1
  have hrange := hn
  have hrange' := hq
  simp only [inRun, Bool.and_eq_true, decide_eq_true_eq] at hrange hrange'
  simp only [misses, smallFirst, smallLast, Bool.or_eq_true, Bool.and_eq_true, Nat.blt_eq,
    Nat.beq_eq] at h
  rcases h with (hbefore | hbehind) | ⟨⟨hstep, hstep'⟩, hodd⟩
  · omega
  · omega
  · have hn' : (n - r.first) % 2 = 0 := by
      rcases hstep with heven | hone
      · exact even_of_inRun hn heven
      · omega
    have hq' := even_of_inRun hq hstep'
    omega

/-- **A small letter of a run is no capital letter.** -/
theorem simple_of_small {r : CaseRun} (hr : r ∈ lowerRuns) {n : Nat} (hn : inRun n r = true)
    {c : Char} (hc : (c.toNat : Int) = n + r.shift) : simple c = c ∧ c ≠ 'İ' := by
  have hsmall := smallRun_of_mem r hr
  have hcapital : ∀ q ∈ dottedRun :: lowerRuns, inRun c.toNat q = false := fun q hq =>
    inRun_eq_false_of_misses hsmall (misses_of_mem hr hq) hn hc
  have hmin := hsmall.1
  have hrange := hn
  simp only [inRun, Bool.and_eq_true, decide_eq_true_eq] at hrange
  constructor
  · unfold simple
    split
    · refine (toLower_cases c).resolve_right fun hcapital => ?_
      omega
    · have hnone : lowerRuns.find? (inRun c.toNat) = none := by
        rw [List.find?_eq_none]
        intro q hq
        simp [hcapital q (List.mem_cons_of_mem _ hq)]
      rw [hnone]
  · rintro rfl
    have hdotted := hcapital dottedRun List.mem_cons_self
    revert hdotted
    decide

/-! ## Lowering twice -/

/-- A character that stays in lower case, whatever stands around it. -/
def Stays (c : Char) : Prop := ∀ before after, lowerAt before c after = [c]

theorem stays_of_simple {c : Char} (h : simple c = c) (hsigma : c ≠ 'Σ') (hdotted : c ≠ 'İ') :
    Stays c := by
  intro before after
  rw [lowerAt, if_neg hsigma, if_neg hdotted, h]

theorem simple_sigma : simple 'Σ' = 'σ' := by decide +kernel

/-- What a single character becomes stays. -/
theorem stays_simple {c : Char} (hdotted : c ≠ 'İ') : Stays (simple c) := by
  have hfixed : simple (simple c) = simple c ∧ simple c ≠ 'İ' := by
    generalize hd : simple c = d
    unfold simple at hd
    split at hd
    · rename_i hascii
      subst hd
      have hlt : c.toLower.toNat < 0x80 := by
        rcases toLower_cases c with hc | ⟨-, hmax, hc⟩
        · rw [hc]
          exact hascii
        · omega
      constructor
      · rw [simple, if_pos hlt, toLower_toLower]
      · intro heq
        rw [heq] at hlt
        revert hlt
        decide
    · rename_i hascii
      split at hd
      · rename_i r hr
        have hrun := List.find?_some hr
        have hmem := List.mem_of_find?_eq_some hr
        subst hd
        exact simple_of_small hmem hrun (SmallRun.toNat_eq (smallRun_of_mem r hmem) hrun)
      · rename_i hnone
        subst hd
        refine ⟨?_, hdotted⟩
        rw [simple, if_neg hascii, hnone]
  refine stays_of_simple hfixed.1 (fun heq => ?_) hfixed.2
  -- a capital sigma would not have stayed
  have hsmall := hfixed.1
  rw [heq, simple_sigma] at hsmall
  revert hsmall
  decide

/-- **What lower case makes of a character stays.** -/
theorem stays_of_mem_lowerAt {before after : List Char} {c d : Char}
    (h : d ∈ lowerAt before c after) : Stays d := by
  have hletters : ∀ e ∈ ['ς', 'σ', 'i', '\u0307'], Stays e := by
    have hfixed : ∀ e ∈ ['ς', 'σ', 'i', '\u0307'], simple e = e ∧ e ≠ 'Σ' ∧ e ≠ 'İ' := by
      simp only [List.mem_cons, List.not_mem_nil, or_false, forall_eq_or_imp, forall_eq]
      decide +kernel
    intro e he
    obtain ⟨hsimple, hsigma, hdotted⟩ := hfixed e he
    exact stays_of_simple hsimple hsigma hdotted
  unfold lowerAt at h
  split at h
  · refine hletters d ?_
    split at h <;> simp_all
  · split at h
    · refine hletters d ?_
      simp_all
    · rename_i hdotted
      rw [List.mem_singleton.1 h]
      exact stays_simple hdotted

theorem stays_of_mem_lowerFrom {before cs : List Char} {d : Char}
    (h : d ∈ lowerFrom before cs) : Stays d := by
  induction cs generalizing before with
  | nil => cases h
  | cons c cs ih =>
    rw [lowerFrom, List.mem_append] at h
    rcases h with h | h
    · exact stays_of_mem_lowerAt h
    · exact ih h

theorem lowerFrom_of_stays {before cs : List Char} (h : ∀ c ∈ cs, Stays c) :
    lowerFrom before cs = cs := by
  induction cs generalizing before with
  | nil => rfl
  | cons c cs ih =>
    have hrest : lowerFrom (c :: before) cs = cs := ih fun d hd => h d (List.mem_cons_of_mem c hd)
    rw [lowerFrom, h c List.mem_cons_self, hrest, List.singleton_append]

/-! ## The case of ASCII -/

/-- What is so of the capital letters of ASCII exactly if it is so of the small ones does not
depend on the case of ASCII. -/
theorem toNat_toLower_congr {P : Nat → Bool} (hP : ∀ i : Fin 26, P (97 + i) = P (65 + i))
    (c : Char) : P c.toLower.toNat = P c.toNat := by
  rcases toLower_cases c with hc | ⟨hmin, hmax, hc⟩
  · rw [hc]
  · have h := hP ⟨c.toNat - 65, by omega⟩
    have hsmall : 97 + (c.toNat - 65) = c.toNat + 32 := by omega
    have hcapital : 65 + (c.toNat - 65) = c.toNat := by omega
    simp only [hsmall, hcapital] at h
    rw [hc, h]

theorem caseIgnorable_toLower (c : Char) :
    inRanges caseIgnorableRanges c.toLower.toNat = inRanges caseIgnorableRanges c.toNat :=
  toNat_toLower_congr (by decide +kernel) c

theorem cased_toLower (c : Char) :
    inRanges casedRanges c.toLower.toNat = inRanges casedRanges c.toNat :=
  toNat_toLower_congr (by decide +kernel) c

theorem meetsCased_map_toLower (cs : List Char) :
    meetsCased (cs.map Char.toLower) = meetsCased cs := by
  induction cs with
  | nil => rfl
  | cons c cs ih =>
    rw [List.map_cons, meetsCased_cons, meetsCased_cons, caseIgnorable_toLower, cased_toLower, ih]

theorem lowerAt_toLower (before : List Char) (c : Char) (after : List Char) :
    lowerAt (before.map Char.toLower) c.toLower (after.map Char.toLower) =
      lowerAt before c after := by
  have hcontext : ∀ d : Char, lowerAt (before.map Char.toLower) d (after.map Char.toLower) =
      lowerAt before d after := by
    intro d
    unfold lowerAt
    rw [meetsCased_map_toLower, meetsCased_map_toLower]
  rw [hcontext]
  rcases toLower_cases c with hc | ⟨hmin, hmax, hc⟩
  · rw [hc]
  · -- letters of ASCII are neither a sigma nor dotted
    have hne : ∀ d : Char, d.toNat < 0x80 → d ≠ 'Σ' ∧ d ≠ 'İ' := by
      intro d hd
      constructor <;> rintro rfl <;> revert hd <;> decide
    have hsmall : c.toLower.toNat < 0x80 := by omega
    have hcapital : c.toNat < 0x80 := by omega
    unfold lowerAt simple
    rw [if_neg (hne _ hsmall).1, if_neg (hne _ hsmall).2, if_neg (hne _ hcapital).1,
      if_neg (hne _ hcapital).2, if_pos hsmall, if_pos hcapital, toLower_toLower]

/-- **Lower case does not look at the case of ASCII**, at the letters or around them. -/
theorem lowerFrom_map_toLower (before cs : List Char) :
    lowerFrom (before.map Char.toLower) (cs.map Char.toLower) = lowerFrom before cs := by
  induction cs generalizing before with
  | nil => rfl
  | cons c cs ih =>
    have hrest := ih (c :: before)
    rw [List.map_cons] at hrest
    rw [List.map_cons, lowerFrom, lowerFrom, lowerAt_toLower, hrest]

end Lowercase

/-- **Lowering twice is lowering once.** -/
theorem lowercase_lowercase (s : String) : lowercase (lowercase s) = lowercase s := by
  have hstays : ∀ c ∈ (lowercase s).toList, Lowercase.Stays c := by
    intro c hc
    rw [lowercase, String.toList_ofList] at hc
    exact Lowercase.stays_of_mem_lowerFrom hc
  rw [lowercase, Lowercase.lowerFrom_of_stays hstays, String.ofList_toList]

/-- Letters of ASCII may be made small before all others are. -/
theorem lowercase_asciiLower (s : String) : lowercase (asciiLower s) = lowercase s := by
  have h := Lowercase.lowerFrom_map_toLower [] s.toList
  unfold lowercase asciiLower
  rw [String.toList_ofList]
  exact congrArg String.ofList h

end Onboarding
