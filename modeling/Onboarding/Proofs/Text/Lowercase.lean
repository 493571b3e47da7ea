import Mathlib.Data.List.Induction
import Onboarding.Proofs.Domain
/-!
# Lower case — what becomes of the characters around letters

Capital letters become letters from the small ones of ASCII upwards, and every other
character stays (`lowerAt_cases`). So a dot, an `@` or a blank is in the small letters of a
text exactly where it was in the text, and no capital letter of ASCII is.

What stands before and behind a character matters for a sigma only. An `@` ends what comes
before a word, and dots behind a word are passed over: the small letters of a domain are the
same with and without the user before it and the dots behind it.
-/

namespace Onboarding

namespace Lowercase

/-! ## Single characters -/

/-- A capital letter of ASCII. -/
def IsCapital (c : Char) : Prop := 65 ≤ c.toNat ∧ c.toNat ≤ 90

theorem toNat_toLower_of_capital {c : Char} (h : IsCapital c) :
    c.toLower.toNat = c.toNat + 32 :=
  (toNat_toLower c).trans (if_pos h)

/-- The small letters of a run are characters, and none of them stands before those of
ASCII. -/
def SmallRun (r : CaseRun) : Prop :=
  97 ≤ r.first + r.shift ∧ (r.last + r.shift < 0xD800 ∨ 0xE000 ≤ r.first + r.shift) ∧
    r.last + r.shift < 0x110000

instance : DecidablePred SmallRun := fun _ => inferInstanceAs (Decidable (_ ∧ _ ∧ _))

theorem smallRun_of_mem : ∀ r ∈ lowerRuns, SmallRun r := by decide +kernel

/-- A small letter of a run is where the shift says. -/
theorem SmallRun.toNat_eq {r : CaseRun} (h : SmallRun r) {n : Nat} (hrun : inRun n r = true) :
    ((Char.ofNat (n + r.shift).toNat).toNat : Int) = n + r.shift := by
  simp only [inRun, Bool.and_eq_true, decide_eq_true_eq] at hrun
  obtain ⟨hmin, hsurrogates, hmax⟩ := h
  have hvalid : (n + r.shift).toNat.isValidChar := by
    unfold Nat.isValidChar
    omega
  have hofNat : (Char.ofNat (n + r.shift).toNat).toNat = (n + r.shift).toNat := by
    unfold Char.ofNat
    rw [dif_pos hvalid]
    rfl
  omega

theorem SmallRun.le_toNat {r : CaseRun} (h : SmallRun r) {n : Nat} (hrun : inRun n r = true) :
    97 ≤ (Char.ofNat (n + r.shift).toNat).toNat := by
  have hletter := h.toNat_eq hrun
  have hmin := h.1
  simp only [inRun, Bool.and_eq_true, decide_eq_true_eq] at hrun
  omega

/-- A character stays, unless it is a capital letter, and becomes none of those before the
small letters of ASCII. -/
theorem simple_cases (c : Char) : simple c = c ∧ ¬ IsCapital c ∨ 97 ≤ (simple c).toNat := by
  unfold simple
  split
  · by_cases hcapital : IsCapital c
    · refine .inr ?_
      rw [toNat_toLower_of_capital hcapital]
      unfold IsCapital at hcapital
      omega
    · refine .inl ⟨(toLower_cases c).resolve_right fun h => hcapital ⟨h.1, h.2.1⟩, hcapital⟩
  · split
    · rename_i r hr
      have hsmall := smallRun_of_mem r (List.mem_of_find?_eq_some hr)
      exact .inr (hsmall.le_toNat (List.find?_some hr))
    · refine .inl ⟨rfl, ?_⟩
      unfold IsCapital
      omega

/-- **What a character becomes**, wherever it stands: itself, or letters from the small ones
of ASCII upwards. -/
theorem lowerAt_cases (before : List Char) (c : Char) (after : List Char) :
    lowerAt before c after = [c] ∧ ¬ IsCapital c ∨
      lowerAt before c after ≠ [] ∧ ∀ d ∈ lowerAt before c after, 97 ≤ d.toNat := by
  unfold lowerAt
  split
  · refine .inr ?_
    split <;> simp
  · split
    · refine .inr ?_
      simp
    · rcases simple_cases c with ⟨hc, hcapital⟩ | hc
      · rw [hc]
        exact .inl ⟨rfl, hcapital⟩
      · exact .inr ⟨by simp, by simpa using hc⟩

/-- A character that is not a letter, as far as domains are concerned. -/
structure IsMark (c : Char) : Prop where
  lt : c.toNat < 97
  not_capital : ¬ IsCapital c

theorem isMark_dot : IsMark '.' := ⟨by decide, by unfold IsCapital; decide⟩

theorem isMark_at : IsMark '@' := ⟨by decide, by unfold IsCapital; decide⟩

/-- A mark stays. -/
theorem IsMark.lowerAt_eq {c : Char} (h : IsMark c) (before after : List Char) :
    lowerAt before c after = [c] := by
  have hlt := h.lt
  have hne : ∀ d : Char, 97 ≤ d.toNat → c ≠ d := by
    rintro d hd rfl
    omega
  unfold lowerAt simple
  rw [if_neg (hne 'Σ' (by decide)), if_neg (hne 'İ' (by decide)), if_pos (by omega),
    (toLower_cases c).resolve_right fun hcapital => h.not_capital ⟨hcapital.1, hcapital.2.1⟩]

/-- What stands before the small letters of ASCII stayed what it was. -/
theorem eq_of_mem_lowerAt {before after : List Char} {c d : Char}
    (hd : d ∈ lowerAt before c after) (hlt : d.toNat < 97) : d = c ∧ ¬ IsCapital d := by
  rcases lowerAt_cases before c after with ⟨hc, hcapital⟩ | ⟨-, hsmall⟩
  · rw [hc, List.mem_singleton] at hd
    exact ⟨hd, hd ▸ hcapital⟩
  · exact absurd (hsmall d hd) (Nat.not_le_of_lt hlt)

/-- Blanks are no capital letters of any script. -/
theorem simple_of_isBlank {c : Char} (h : isBlank c = true) : simple c = c := by
  have hapart : ∀ r ∈ lowerRuns, ∀ b ∈ blankRanges, b.2 < r.first ∨ r.last < b.1 := by
    decide +kernel
  unfold isBlank inRanges at h
  rw [List.any_eq_true] at h
  obtain ⟨b, hb, hc⟩ := h
  simp only [Bool.and_eq_true, decide_eq_true_eq] at hc
  unfold simple
  split
  · refine (toLower_cases c).resolve_right fun hcapital => ?_
    have hnone : ∀ b ∈ blankRanges, b.2 < 65 ∨ 90 < b.1 := by decide
    have := hnone b hb
    omega
  · split
    · rename_i r hr
      have hrun := List.find?_some hr
      simp only [inRun, Bool.and_eq_true, decide_eq_true_eq] at hrun
      have := hapart r (List.mem_of_find?_eq_some hr) b hb
      omega
    · rfl

theorem lowerAt_of_isBlank {c : Char} (h : isBlank c = true) (before after : List Char) :
    lowerAt before c after = [c] := by
  unfold lowerAt
  split
  · rename_i hc
    rw [hc] at h
    exact absurd h (by decide)
  · split
    · rename_i hc
      rw [hc] at h
      exact absurd h (by decide)
    · rw [simple_of_isBlank h]

/-! ## What stands around a character -/

theorem meetsCased_cons (c : Char) (cs : List Char) :
    meetsCased (c :: cs) =
      if inRanges caseIgnorableRanges c.toNat then meetsCased cs
      else inRanges casedRanges c.toNat := by
  unfold meetsCased
  rw [List.dropWhile_cons]
  cases inRanges caseIgnorableRanges c.toNat <;> rfl

/-- An `@` ends what comes before a word. -/
theorem meetsCased_append_at (near far : List Char) :
    meetsCased (near ++ '@' :: far) = meetsCased near := by
  induction near with
  | nil =>
    have hpassed : inRanges caseIgnorableRanges '@'.toNat = false := by decide +kernel
    have hcased : inRanges casedRanges '@'.toNat = false := by decide +kernel
    rw [List.nil_append, meetsCased_cons, hpassed, hcased]
    rfl
  | cons c near ih => rw [List.cons_append, meetsCased_cons, meetsCased_cons, ih]

/-- Dots behind a word are passed over. -/
theorem meetsCased_append_dots (cs : List Char) (n : Nat) :
    meetsCased (cs ++ List.replicate n '.') = meetsCased cs := by
  induction cs with
  | nil =>
    have hpassed : inRanges caseIgnorableRanges '.'.toNat = true := by decide +kernel
    rw [List.nil_append]
    induction n with
    | zero => rfl
    | succ n ih => rw [List.replicate_succ, meetsCased_cons, hpassed, if_pos rfl, ih]
  | cons c cs ih => rw [List.cons_append, meetsCased_cons, meetsCased_cons, ih]

theorem lowerAt_append_at (near far : List Char) (c : Char) (after : List Char) :
    lowerAt (near ++ '@' :: far) c after = lowerAt near c after := by
  unfold lowerAt
  rw [meetsCased_append_at]

theorem lowerAt_append_dots (before : List Char) (c : Char) (after : List Char) (n : Nat) :
    lowerAt before c (after ++ List.replicate n '.') = lowerAt before c after := by
  unfold lowerAt
  rw [meetsCased_append_dots]

/-! ## Texts -/

variable {before cs : List Char}

/-- The small letters of a text end in those of its end. -/
theorem lowerFrom_append (before xs ys : List Char) :
    ∃ ls, lowerFrom before (xs ++ ys) = ls ++ lowerFrom (xs.reverse ++ before) ys := by
  induction xs generalizing before with
  | nil => exact ⟨[], rfl⟩
  | cons x xs ih =>
    obtain ⟨ls, hls⟩ := ih (x :: before)
    refine ⟨lowerAt before x (xs ++ ys) ++ ls, ?_⟩
    rw [List.cons_append, lowerFrom, hls, List.reverse_cons, List.append_assoc, List.append_assoc]
    rfl

theorem lowerFrom_append_at (near far cs : List Char) :
    lowerFrom (near ++ '@' :: far) cs = lowerFrom near cs := by
  induction cs generalizing near with
  | nil => rfl
  | cons c cs ih =>
    rw [lowerFrom, lowerFrom, lowerAt_append_at, ← List.cons_append, ih]

/-- Behind an `@` a text is lowered as if nothing stood before it. -/
theorem lowerFrom_behind_at (before xs ys : List Char) :
    ∃ ls, lowerFrom before (xs ++ '@' :: ys) = ls ++ '@' :: lowerFrom [] ys := by
  obtain ⟨ls, hls⟩ := lowerFrom_append before xs ('@' :: ys)
  refine ⟨ls, ?_⟩
  rw [hls, lowerFrom, isMark_at.lowerAt_eq, List.singleton_append]
  exact congrArg (ls ++ '@' :: ·) (lowerFrom_append_at [] _ ys)

theorem lowerFrom_dots (before : List Char) (n : Nat) :
    lowerFrom before (List.replicate n '.') = List.replicate n '.' := by
  induction n generalizing before with
  | zero => rfl
  | succ n ih =>
    rw [List.replicate_succ, lowerFrom, ih]
    rfl

theorem lowerFrom_append_dots (before cs : List Char) (n : Nat) :
    lowerFrom before (cs ++ List.replicate n '.') =
      lowerFrom before cs ++ List.replicate n '.' := by
  induction cs generalizing before with
  | nil => exact lowerFrom_dots before n
  | cons c cs ih =>
    rw [List.cons_append, lowerFrom, lowerFrom, lowerAt_append_dots, ih, List.append_assoc]

/-- What stands before the small letters of ASCII in the small letters of a text is in the
text. -/
theorem mem_of_mem_lowerFrom {d : Char} (hd : d ∈ lowerFrom before cs) (hlt : d.toNat < 97) :
    d ∈ cs ∧ ¬ IsCapital d := by
  induction cs generalizing before with
  | nil => cases hd
  | cons c cs ih =>
    rw [lowerFrom, List.mem_append] at hd
    rcases hd with hd | hd
    · obtain ⟨rfl, hcapital⟩ := eq_of_mem_lowerAt hd hlt
      exact ⟨List.mem_cons_self, hcapital⟩
    · obtain ⟨hmem, hcapital⟩ := ih hd
      exact ⟨List.mem_cons_of_mem _ hmem, hcapital⟩

/-- Blanks stay. -/
theorem mem_lowerFrom_of_isBlank {c : Char} (hc : c ∈ cs) (h : isBlank c = true) :
    c ∈ lowerFrom before cs := by
  induction cs generalizing before with
  | nil => cases hc
  | cons d cs ih =>
    rw [lowerFrom, List.mem_append]
    rcases List.mem_cons.1 hc with rfl | hc
    · rw [lowerAt_of_isBlank h]
      exact .inl List.mem_cons_self
    · exact .inr (ih hc)

theorem lowerFrom_eq_nil : lowerFrom before cs = [] ↔ cs = [] := by
  cases cs with
  | nil => exact iff_of_true rfl rfl
  | cons c cs =>
    refine iff_of_false (fun h => ?_) (List.cons_ne_nil c cs)
    rw [lowerFrom, List.append_eq_nil_iff] at h
    rcases lowerAt_cases before c cs with ⟨hc, -⟩ | ⟨hne, -⟩
    · rw [hc] at h
      cases h.1
    · exact hne h.1

/-- **A mark is as often in the small letters of a text** as in the text. -/
theorem count_lowerFrom {m : Char} (hm : IsMark m) :
    (lowerFrom before cs).count m = cs.count m := by
  induction cs generalizing before with
  | nil => rfl
  | cons c cs ih =>
    have hc : (lowerAt before c cs).count m = [c].count m := by
      by_cases hcm : c = m
      · rw [(hcm ▸ hm : IsMark c).lowerAt_eq]
      · have hnone : m ∉ lowerAt before c cs :=
          fun hmem => hcm (eq_of_mem_lowerAt hmem hm.lt).1.symm
        rw [List.count_eq_zero_of_not_mem hnone,
          List.count_eq_zero_of_not_mem (by simpa using Ne.symm hcm)]
    rw [lowerFrom, List.count_append, ih, hc, ← List.count_append, List.singleton_append]

/-- The small letters of a text that does not end in a mark do not either. -/
theorem getLast?_lowerFrom_ne {m : Char} (hm : IsMark m) (h : cs.getLast? ≠ some m) :
    (lowerFrom before cs).getLast? ≠ some m := by
  induction cs using List.reverseRecOn with
  | nil => exact h
  | append_singleton cs c _ =>
    obtain ⟨ls, hls⟩ := lowerFrom_append before cs [c]
    have hne : lowerFrom (cs.reverse ++ before) [c] ≠ [] :=
      mt lowerFrom_eq_nil.1 (List.cons_ne_nil c [])
    rw [hls, List.getLast?_append_of_ne_nil _ hne]
    intro hlast
    have hmem := (mem_of_mem_lowerFrom (List.mem_of_getLast? hlast) hm.lt).1
    rw [List.mem_singleton.1 hmem] at h
    exact h List.getLast?_concat

/-- Small letters have no capital ones of ASCII among them. -/
theorem map_toLower_lowerFrom : (lowerFrom before cs).map Char.toLower = lowerFrom before cs := by
  refine Eq.trans (List.map_congr_left fun d hd => ?_) (List.map_id _)
  refine (toLower_cases d).resolve_right fun hcapital => ?_
  exact (mem_of_mem_lowerFrom hd (by omega)).2 ⟨hcapital.1, hcapital.2.1⟩

end Lowercase

end Onboarding
