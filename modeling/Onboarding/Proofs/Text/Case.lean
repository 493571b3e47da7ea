import Onboarding.Text.Split
/-!
# Case — what a text was before its letters were folded

A letter of ASCII and its other case are 32 apart, and every other character stays what it is
(`toNat_toLower`, `toNat_toUpper`). So a text that does not mix small and capital letters is
what it is folded to, or that in capital letters (`folds_iff`).
-/

namespace Onboarding

/-! ## Letters -/

section Letters

variable {c : Char}

theorem isUpper_iff : c.isUpper = true ↔ 65 ≤ c.toNat ∧ c.toNat ≤ 90 := by
  show decide ('A'.val ≤ c.val ∧ c.val ≤ 'Z'.val) = true ↔ _
  rw [decide_eq_true_iff]
  exact and_congr UInt32.le_iff_toNat_le UInt32.le_iff_toNat_le

theorem isLower_iff : c.isLower = true ↔ 97 ≤ c.toNat ∧ c.toNat ≤ 122 := by
  show (decide ('a'.val ≤ c.val) && decide (c.val ≤ 'z'.val)) = true ↔ _
  rw [Bool.and_eq_true, decide_eq_true_iff, decide_eq_true_iff]
  exact and_congr UInt32.le_iff_toNat_le UInt32.le_iff_toNat_le

theorem toNat_toLower (c : Char) :
    c.toLower.toNat = if 65 ≤ c.toNat ∧ c.toNat ≤ 90 then c.toNat + 32 else c.toNat := by
  unfold Char.toLower
  split
  · rename_i h
    have hmin : 65 ≤ c.val.toNat := UInt32.le_iff_toNat_le.1 h.1
    have hmax : c.val.toNat ≤ 90 := UInt32.le_iff_toNat_le.1 h.2
    have hsmall : (32 : UInt32).toNat = 32 := rfl
    rw [if_pos ⟨hmin, hmax⟩]
    show (c.val + 32).toNat = c.val.toNat + 32
    rw [UInt32.toNat_add]
    omega
  · rename_i h
    exact (if_neg fun hc => h (hc.imp UInt32.le_iff_toNat_le.2 UInt32.le_iff_toNat_le.2)).symm

theorem toNat_toUpper (c : Char) :
    c.toUpper.toNat = if 97 ≤ c.toNat ∧ c.toNat ≤ 122 then c.toNat - 32 else c.toNat := by
  unfold Char.toUpper
  split
  · rename_i h
    have hmin : 97 ≤ c.val.toNat := UInt32.le_iff_toNat_le.1 h.1
    have hmax : c.val.toNat ≤ 122 := UInt32.le_iff_toNat_le.1 h.2
    -- what is added is 32 less than a whole turn
    have hturn : ('A'.val - 'a'.val).toNat + 32 = 4294967296 := rfl
    rw [if_pos ⟨hmin, hmax⟩]
    show (c.val + ('A'.val - 'a'.val)).toNat = c.val.toNat - 32
    rw [UInt32.toNat_add]
    omega
  · rename_i h
    exact (if_neg fun hc => h (hc.imp UInt32.le_iff_toNat_le.2 UInt32.le_iff_toNat_le.2)).symm

theorem toLower_of_not_isUpper (h : ¬ c.isUpper = true) : c.toLower = c :=
  Char.toNat_inj.1 ((toNat_toLower c).trans (if_neg fun hc => h (isUpper_iff.2 hc)))

/-- No capital letter is left. -/
theorem isUpper_toLower (c : Char) : ¬ c.toLower.isUpper = true := by
  rw [isUpper_iff, toNat_toLower]
  split <;> omega

/-- No small letter is left. -/
theorem isLower_toUpper (c : Char) : ¬ c.toUpper.isLower = true := by
  rw [isLower_iff, toNat_toUpper]
  split <;> omega

theorem toUpper_toLower (h : ¬ c.isLower = true) : c.toLower.toUpper = c := by
  rw [isLower_iff] at h
  refine Char.toNat_inj.1 ?_
  rw [toNat_toUpper, toNat_toLower]
  split
  · rw [if_pos (by omega)]
    omega
  · rfl

theorem toLower_toUpper (h : ¬ c.isUpper = true) : c.toUpper.toLower = c := by
  rw [isUpper_iff] at h
  refine Char.toNat_inj.1 ?_
  rw [toNat_toLower, toNat_toUpper]
  split
  · rw [if_pos (by omega)]
    omega
  · rfl

end Letters

/-! ## Texts -/

/-- A text with its ASCII letters in upper case and every other character as it is. -/
def asciiUpper (s : String) : String := String.ofList (s.toList.map Char.toUpper)

/-- **A text of one case is what it is folded to**, or that in capital letters. -/
theorem folds_iff {cs ts : List Char} (hts : ∀ c ∈ ts, c.isUpper = false) :
    (cs.any Char.isLower && cs.any Char.isUpper) = false ∧ cs.map Char.toLower = ts ↔
      cs = ts ∨ cs = ts.map Char.toUpper := by
  constructor
  · rintro ⟨hcase, rfl⟩
    rw [Bool.and_eq_false_iff, List.any_eq_false, List.any_eq_false] at hcase
    rcases hcase with hlower | hupper
    · refine .inr (Eq.trans (List.map_id cs).symm ?_)
      rw [List.map_map]
      refine List.map_congr_left fun c hc => ?_
      exact (toUpper_toLower (hlower c hc)).symm
    · refine .inl (Eq.trans (List.map_id cs).symm ?_)
      exact List.map_congr_left fun c hc => (toLower_of_not_isUpper (hupper c hc)).symm
  · have hsmall : ∀ c ∈ ts, ¬ c.isUpper = true := fun c hc => by simp [hts c hc]
    rintro (rfl | rfl)
    · rw [List.any_eq_false.2 hsmall, Bool.and_false]
      refine ⟨rfl, Eq.trans (List.map_congr_left fun c hc => ?_) (List.map_id _)⟩
      exact toLower_of_not_isUpper (hsmall c hc)
    · have hcase : (ts.map Char.toUpper).any Char.isLower = false := by
        rw [List.any_map, List.any_eq_false]
        exact fun c _ => isLower_toUpper c
      rw [hcase, Bool.false_and, List.map_map]
      refine ⟨rfl, Eq.trans (List.map_congr_left fun c hc => ?_) (List.map_id _)⟩
      exact toLower_toUpper (hsmall c hc)

/-- A text does not mix small and capital letters. -/
def OneCase (cs : List Char) : Prop := (∀ c ∈ cs, c.isLower = false) ∨ ∀ c ∈ cs, c.isUpper = false

namespace OneCase

variable {cs ds : List Char}

theorem iff_any : OneCase cs ↔ (cs.any Char.isLower && cs.any Char.isUpper) = false := by
  simp only [OneCase, Bool.and_eq_false_iff, List.any_eq_false, Bool.not_eq_true]

theorem subset (h : OneCase ds) (hsub : cs ⊆ ds) : OneCase cs :=
  h.imp (fun h c hc => h c (hsub hc)) (fun h c hc => h c (hsub hc))

/-- Texts that share a letter do not mix cases between them either. -/
theorem append {c : Char} (hcs : OneCase cs) (hds : OneCase ds) (hc : c ∈ cs) (hd : c ∈ ds)
    (hletter : c.isAlpha = true) : OneCase (cs ++ ds) := by
  have hone : c.isLower = true ∨ c.isUpper = true := by
    have hcases : (c.isUpper || c.isLower) = true := hletter
    rwa [Bool.or_eq_true, or_comm] at hcases
  rcases hcs with hcs | hcs <;> rcases hds with hds | hds
  · exact .inl (List.forall_mem_append.2 ⟨hcs, hds⟩)
  · simp [hcs c hc, hds c hd] at hone
  · simp [hcs c hc, hds c hd] at hone
  · exact .inr (List.forall_mem_append.2 ⟨hcs, hds⟩)

/-- **Texts that fold to one are one**, as long as they do not mix cases between them. -/
theorem eq_of_fold (hcase : OneCase (cs ++ ds)) (h : cs.map Char.toLower = ds.map Char.toLower) :
    cs = ds := by
  have hsmall : ∀ c ∈ (cs ++ ds).map Char.toLower, c.isUpper = false := by
    intro c hc
    obtain ⟨a, -, rfl⟩ := List.mem_map.1 hc
    exact Bool.eq_false_iff.2 (isUpper_toLower a)
  have hfolds := (folds_iff hsmall).1 ⟨iff_any.1 hcase, rfl⟩
  rw [List.map_append, List.map_append] at hfolds
  rcases hfolds with hlower | hupper
  · obtain ⟨hcs, hds⟩ := List.append_inj hlower (List.length_map _).symm
    rw [hcs, hds, h]
  · obtain ⟨hcs, hds⟩ := List.append_inj hupper (by simp)
    rw [hcs, hds, h]

end OneCase

end Onboarding
