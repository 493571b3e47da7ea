import Mathlib.Data.List.Induction
import Mathlib.Data.List.Sort
import Onboarding.Settings
/-!
# Tiers — the sender's reward as a step function

A sender is paid by the highest tier that is reached. The tiers stand in any order, and
of tiers with one threshold the last in the list would pay, so what a sender earns is a
function of the tiers as a set only where no two of them share a threshold.
`Settings.check` looks for such a pair among the sorted thresholds, as two equal
neighbours; nothing else is asked of the tiers.
-/

namespace Onboarding

namespace RewardPolicy

variable {p : RewardPolicy} {n : Nat} {t t' : RewardTier} {tiers : List RewardTier}

/-- Two tiers of the policy, at different places of its list, start at one threshold. -/
def TwoShare (p : RewardPolicy) : Prop :=
  ∃ i j : Fin p.senderTiers.length, i ≠ j ∧
    p.senderTiers[i].minConfirmed = p.senderTiers[j].minConfirmed

/-- The tier pays a sender who had `n` confirmed referrals: it is reached, and no tier
that is reached starts later. -/
structure Pays (p : RewardPolicy) (n : Nat) (t : RewardTier) : Prop where
  mem : t ∈ p.senderTiers
  reached : t.minConfirmed.toNat ≤ n
  greatest : ∀ t' ∈ p.senderTiers, t'.minConfirmed.toNat ≤ n →
    t'.minConfirmed.toNat ≤ t.minConfirmed.toNat

/-! ## Shared thresholds

In a sorted list equal entries stand side by side, so the search among neighbours
finds every pair. -/

theorem hasEqualNeighbours_of_not_nodup {l : List UInt64} (hsorted : l.Pairwise (· ≤ ·))
    (hdup : ¬ l.Nodup) : hasEqualNeighbours l = true := by
  induction l with
  | nil => exact absurd List.nodup_nil hdup
  | cons a l ih =>
    have hle : ∀ b ∈ l, a ≤ b := (List.pairwise_cons.1 hsorted).1
    have htail : l.Pairwise (· ≤ ·) := hsorted.of_cons
    cases l with
    | nil => exact absurd (List.nodup_singleton a) hdup
    | cons b l =>
      by_cases hab : a = b
      · simp [hasEqualNeighbours, hab]
      · -- `a` lies below its neighbour, hence below every later entry
        have hlt : a < b := UInt64.lt_of_le_of_ne (hle b List.mem_cons_self) hab
        have hfresh : a ∉ b :: l := by
          intro hmem
          rcases List.mem_cons.1 hmem with heq | hmem
          · exact hab heq
          · have hba : b ≤ a := (List.pairwise_cons.1 htail).1 a hmem
            exact absurd hlt (UInt64.not_lt.2 hba)
        have hrest : ¬ (b :: l).Nodup := fun hnd => hdup (List.nodup_cons.2 ⟨hfresh, hnd⟩)
        simp [hasEqualNeighbours, ih htail hrest]

theorem not_nodup_of_hasEqualNeighbours {l : List UInt64} (h : hasEqualNeighbours l = true) :
    ¬ l.Nodup := by
  induction l with
  | nil => simp [hasEqualNeighbours] at h
  | cons a l ih =>
    intro hnd
    obtain ⟨hfresh, htail⟩ := List.nodup_cons.1 hnd
    cases l with
    | nil => simp [hasEqualNeighbours] at h
    | cons b l =>
      simp only [hasEqualNeighbours, Bool.or_eq_true, beq_iff_eq] at h
      rcases h with hab | hlater
      · exact hfresh (hab ▸ List.mem_cons_self)
      · exact ih hlater htail

theorem sharesThreshold_eq_false_iff :
    p.sharesThreshold = false ↔ (p.senderTiers.map (·.minConfirmed)).Nodup := by
  have hsorted : ((p.senderTiers.map (·.minConfirmed)).mergeSort fun a b => a ≤ b).Pairwise
      (· ≤ ·) := by
    have := @List.pairwise_mergeSort UInt64 (fun a b => decide (a ≤ b))
      (fun a b c => by simpa using UInt64.le_trans) (fun a b => by simpa using UInt64.le_total a b)
      (p.senderTiers.map (·.minConfirmed))
    simpa using this
  have hperm := List.mergeSort_perm (p.senderTiers.map (·.minConfirmed)) fun a b => a ≤ b
  unfold sharesThreshold
  rw [← hperm.nodup_iff]
  constructor
  · intro h
    by_contra hdup
    rw [hasEqualNeighbours_of_not_nodup hsorted hdup] at h
    exact Bool.noConfusion h
  · intro hnd
    exact Bool.eq_false_iff.2 fun h => not_nodup_of_hasEqualNeighbours h hnd

theorem twoShare_iff_not_nodup :
    p.TwoShare ↔ ¬ (p.senderTiers.map (·.minConfirmed)).Nodup := by
  rw [List.Nodup, List.pairwise_map, List.pairwise_iff_getElem]
  constructor
  · rintro ⟨i, j, hij, heq⟩ hne
    rcases Nat.lt_or_gt_of_ne (Fin.val_ne_of_ne hij) with hlt | hgt
    · exact hne i j i.2 j.2 hlt heq
    · exact hne j i j.2 i.2 hgt heq.symm
  · intro h
    push Not at h
    obtain ⟨i, j, hi, hj, hlt, heq⟩ := h
    exact ⟨⟨i, hi⟩, ⟨j, hj⟩, fun hij => Nat.ne_of_lt hlt (Fin.val_eq_of_eq hij), heq⟩

/-- The search among sorted neighbours finds exactly the policies in which two tiers
share a threshold. -/
theorem sharesThreshold_iff : p.sharesThreshold = true ↔ p.TwoShare := by
  rw [twoShare_iff_not_nodup, ← sharesThreshold_eq_false_iff, Bool.not_eq_false]

/-! ## The highest tier -/

theorem highest_concat (tiers : List RewardTier) (t : RewardTier) :
    highest (tiers ++ [t]) = match highest tiers with
      | none => some t
      | some b => if t.minConfirmed < b.minConfirmed then some b else some t :=
  List.foldl_concat _ _ _ _

theorem highest_eq_none_iff : highest tiers = none ↔ tiers = [] := by
  induction tiers using List.reverseRecOn with
  | nil => simp [highest]
  | append_singleton tiers t _ =>
    rw [highest_concat]
    constructor
    · intro h
      split at h
      · cases h
      · split at h <;> cases h
    · intro h
      exact absurd h (List.concat_ne_nil t tiers)

/-- The scan ends with a tier of the list, and no tier of the list starts later. -/
theorem highest_eq_some (h : highest tiers = some t) :
    t ∈ tiers ∧ ∀ t' ∈ tiers, t'.minConfirmed.toNat ≤ t.minConfirmed.toNat := by
  induction tiers using List.reverseRecOn generalizing t with
  | nil => cases h
  | append_singleton tiers last ih =>
    rw [highest_concat] at h
    cases hbest : highest tiers with
    | none =>
      rw [hbest] at h
      obtain rfl : last = t := Option.some.inj h
      obtain rfl : tiers = [] := highest_eq_none_iff.1 hbest
      simp
    | some best =>
      rw [hbest] at h
      obtain ⟨hmem, hmax⟩ := ih hbest
      by_cases hlt : last.minConfirmed < best.minConfirmed
      · obtain rfl : best = t := Option.some.inj (by simpa [hlt] using h)
        have hlt' : last.minConfirmed.toNat < best.minConfirmed.toNat :=
          UInt64.lt_iff_toNat_lt.1 hlt
        refine ⟨List.mem_append_left _ hmem, fun t' ht' => ?_⟩
        rcases List.mem_append.1 ht' with ht' | ht'
        · exact hmax t' ht'
        · obtain rfl : t' = last := List.mem_singleton.1 ht'
          omega
      · obtain rfl : last = t := Option.some.inj (by simpa [hlt] using h)
        have hle : best.minConfirmed.toNat ≤ last.minConfirmed.toNat := by
          rw [UInt64.lt_iff_toNat_lt] at hlt
          omega
        refine ⟨List.mem_append_right _ (List.mem_singleton.2 rfl), fun t' ht' => ?_⟩
        rcases List.mem_append.1 ht' with ht' | ht'
        · have := hmax t' ht'
          omega
        · obtain rfl : t' = last := List.mem_singleton.1 ht'
          exact Nat.le_refl _

/-! ## What a sender is paid -/

theorem senderReward_of_unreached (h : ∀ t ∈ p.senderTiers, n < t.minConfirmed.toNat) :
    p.senderReward n = .zero := by
  have hnone : p.senderTiers.filter (fun t => t.minConfirmed.toNat ≤ n) = [] := by
    refine List.filter_eq_nil_iff.2 fun t ht => ?_
    have := h t ht
    simp only [decide_eq_true_eq]
    omega
  rw [senderReward, hnone]
  rfl

/-- Once a tier is reached, the sender is paid by one that pays. -/
theorem senderReward_of_reached (ht : t ∈ p.senderTiers) (hn : t.minConfirmed.toNat ≤ n) :
    ∃ t, p.Pays n t ∧ p.senderReward n = t.reward := by
  have hmem : t ∈ p.senderTiers.filter fun t => t.minConfirmed.toNat ≤ n :=
    List.mem_filter.2 ⟨ht, by simpa using hn⟩
  cases hbest : highest (p.senderTiers.filter fun t => t.minConfirmed.toNat ≤ n) with
  | none =>
    rw [highest_eq_none_iff.1 hbest] at hmem
    cases hmem
  | some best =>
    obtain ⟨hin, hmax⟩ := highest_eq_some hbest
    obtain ⟨hin, hreached⟩ := List.mem_filter.1 hin
    have hpays : p.Pays n best :=
      ⟨hin, by simpa using hreached, fun t' ht' hn' =>
        hmax t' (List.mem_filter.2 ⟨ht', by simpa using hn'⟩)⟩
    exact ⟨best, hpays, by rw [senderReward, hbest]⟩

theorem Pays.minConfirmed_eq (h : p.Pays n t) (h' : p.Pays n t') :
    t.minConfirmed = t'.minConfirmed := by
  have hle := h.greatest t' h'.mem h'.reached
  have hge := h'.greatest t h.mem h.reached
  exact UInt64.toNat_inj.1 (Nat.le_antisymm hge hle)

/-- Where no two tiers share a threshold, only one of them pays. -/
theorem Pays.unique (hp : ¬ p.TwoShare) (h : p.Pays n t) (h' : p.Pays n t') : t = t' := by
  have hnodup : (p.senderTiers.map (·.minConfirmed)).Nodup := by
    rwa [twoShare_iff_not_nodup, not_not] at hp
  exact List.inj_on_of_nodup_map hnodup h.mem h'.mem (h.minConfirmed_eq h')

theorem Pays.senderReward_eq (hp : ¬ p.TwoShare) (h : p.Pays n t) :
    p.senderReward n = t.reward := by
  obtain ⟨t', ht', heq⟩ := senderReward_of_reached h.mem h.reached
  rw [heq, ht'.unique hp h]

/-- Which tier pays does not depend on where the tiers stand in the list. -/
theorem senderReward_perm (hp : ¬ p.TwoShare) (h : tiers.Perm p.senderTiers) :
    { p with senderTiers := tiers }.senderReward n = p.senderReward n := by
  have hp' : ¬ TwoShare { p with senderTiers := tiers } := by
    rw [twoShare_iff_not_nodup] at hp ⊢
    rwa [(h.map _).nodup_iff]
  by_cases hn : ∃ t ∈ p.senderTiers, t.minConfirmed.toNat ≤ n
  · obtain ⟨_, hmem, hreached⟩ := hn
    obtain ⟨t, ht, heq⟩ := senderReward_of_reached hmem hreached
    have ht' : Pays { p with senderTiers := tiers } n t :=
      ⟨h.mem_iff.2 ht.mem, ht.reached, fun t' hmem' => ht.greatest t' (h.mem_iff.1 hmem')⟩
    rw [heq, ht'.senderReward_eq hp']
  · push Not at hn
    rw [senderReward_of_unreached hn,
      senderReward_of_unreached fun t ht => hn t (h.mem_iff.1 ht)]

/-- The reward changes only where a tier starts. -/
theorem senderReward_succ (h : ∀ t ∈ p.senderTiers, t.minConfirmed.toNat ≠ n + 1) :
    p.senderReward (n + 1) = p.senderReward n := by
  have hfilter : p.senderTiers.filter (fun t => t.minConfirmed.toNat ≤ n + 1) =
      p.senderTiers.filter (fun t => t.minConfirmed.toNat ≤ n) := by
    refine List.filter_congr fun t ht => ?_
    have := h t ht
    rw [decide_eq_decide]
    omega
  rw [senderReward, senderReward, hfilter]

end RewardPolicy

namespace Settings

variable {s : Settings}

/-- The settings with no tiers at all. -/
def untiered (s : Settings) : Settings :=
  { s with referral := { s.referral with senderTiers := [] } }

@[simp] theorem untiered_sharesThreshold : s.untiered.referral.sharesThreshold = false :=
  RewardPolicy.sharesThreshold_eq_false_iff.2 List.nodup_nil

/-- The tiers are looked at last: where the rest of the settings is refused, so are the
settings, and for the same reason. -/
theorem check_eq (s : Settings) :
    s.check = s.untiered.check.bind fun _ =>
      if s.referral.sharesThreshold then .error .sharedThreshold else .ok () := by
  unfold check
  rw [untiered_sharesThreshold]
  unfold untiered
  split
  · rfl
  split
  · rfl
  split <;> rfl

theorem untiered_check_ne : s.untiered.check ≠ .error .sharedThreshold := by
  unfold check
  split
  · simp
  split
  · simp
  split <;> simp

theorem check_eq_sharedThreshold_iff :
    s.check = .error .sharedThreshold ↔ s.untiered.check = .ok () ∧ s.referral.TwoShare := by
  rw [check_eq, ← RewardPolicy.sharesThreshold_iff]
  cases hrest : s.untiered.check with
  | error e =>
    have hne := untiered_check_ne (s := s)
    rw [hrest] at hne
    simpa [Except.bind] using hne
  | ok _ => cases s.referral.sharesThreshold <;> simp [Except.bind]

theorem check_eq_ok_iff :
    s.check = .ok () ↔ s.untiered.check = .ok () ∧ ¬ s.referral.TwoShare := by
  rw [check_eq, ← RewardPolicy.sharesThreshold_iff]
  cases s.untiered.check with
  | error e => simp [Except.bind]
  | ok _ => cases s.referral.sharesThreshold <;> simp [Except.bind]

/-- **Reward tiers are a well-defined step function.** Settings are refused for their
tiers exactly when nothing else is wrong with them and two tiers share a threshold, and
never accepted with such a pair. Under settings that are accepted a sender with `n`
confirmed referrals earns the reward of the tier with the greatest threshold up to `n`,
or nothing where there is none; the order of the tiers does not matter, and the reward
changes from `n` to `n + 1` only where a tier starts at `n + 1`. -/
theorem tiers_step_function (s : Settings) :
    (s.check = .error .sharedThreshold ↔ s.untiered.check = .ok () ∧ s.referral.TwoShare) ∧
    (s.check = .ok () ↔ s.untiered.check = .ok () ∧ ¬ s.referral.TwoShare) ∧
    (s.check = .ok () → ∀ n : Nat,
      ((∃! t, s.referral.Pays n t) ∨ ∀ t ∈ s.referral.senderTiers, n < t.minConfirmed.toNat) ∧
      (∀ t, s.referral.Pays n t → s.referral.senderReward n = t.reward) ∧
      ((∀ t ∈ s.referral.senderTiers, n < t.minConfirmed.toNat) →
        s.referral.senderReward n = .zero) ∧
      (∀ tiers : List RewardTier, tiers.Perm s.referral.senderTiers →
        { s.referral with senderTiers := tiers }.senderReward n = s.referral.senderReward n) ∧
      (s.referral.senderReward n ≠ s.referral.senderReward (n + 1) →
        ∃ t ∈ s.referral.senderTiers, t.minConfirmed.toNat = n + 1)) := by
  refine ⟨check_eq_sharedThreshold_iff, check_eq_ok_iff, fun hok n => ?_⟩
  have hp : ¬ s.referral.TwoShare := (check_eq_ok_iff.1 hok).2
  refine ⟨?_, fun t ht => ht.senderReward_eq hp, RewardPolicy.senderReward_of_unreached,
    fun tiers hperm => RewardPolicy.senderReward_perm hp hperm, fun hne => ?_⟩
  · by_cases hn : ∃ t ∈ s.referral.senderTiers, t.minConfirmed.toNat ≤ n
    · obtain ⟨_, hmem, hreached⟩ := hn
      obtain ⟨t, ht, -⟩ := RewardPolicy.senderReward_of_reached hmem hreached
      exact .inl ⟨t, ht, fun t' ht' => ht'.unique hp ht⟩
    · push Not at hn
      exact .inr hn
  · by_contra hnone
    push Not at hnone
    exact hne (RewardPolicy.senderReward_succ hnone).symm

theorem tiers_step_function_defaults :
    ({ } : Settings).check = .ok () ∧
      ({ } : Settings).referral.Pays 120 ⟨100, ⟨12500000⟩⟩ ∧
      ({ } : Settings).referral.senderReward 120 = ⟨12500000⟩ := by
  have hdistinct : ({ } : Settings).referral.sharesThreshold = false :=
    RewardPolicy.sharesThreshold_eq_false_iff.2 (by decide)
  have hok : ({ } : Settings).check = .ok () := by
    unfold check
    rw [hdistinct]
    decide
  have hpays : ({ } : Settings).referral.Pays 120 ⟨100, ⟨12500000⟩⟩ :=
    ⟨by decide, by decide, by decide⟩
  exact ⟨hok, hpays, ((tiers_step_function { }).2.2 hok 120).2.1 _ hpays⟩

end Settings

end Onboarding
