import Mathlib.Algebra.BigOperators.Group.Finset.Basic
import Onboarding.Proofs.Counts
import Onboarding.Proofs.Service.Run
/-!
# Schedule — the rewards of a sender follow the tiers one by one

The reward of a sender depends on how many referrals of that sender were confirmed
before, counted in the transaction that confirms one more. So the rewards that were fixed
are those of the first places of the schedule, each place once (`Contents.Scheduled`):
a payout adds the row at the next place (`ConfirmedRows.refer`), and no other entry
touches a confirmed row. What is reported of a sender is the sum over these places, cut
off at the largest amount.
-/

namespace Onboarding

open StoreView

/-- Amounts that are added one by one add up to their sum, cut off at the largest
amount. -/
theorem TokenAmount.toNat_foldl_saturatingAdd (f : Nat → TokenAmount) (n : Nat) :
    (((List.range n).map f).foldl saturatingAdd zero).units.toNat =
      min max.units.toNat (∑ i ∈ Finset.range n, (f i).units.toNat) := by
  induction n with
  | zero => rfl
  | succ n ih =>
    rw [List.range_succ, List.map_append, List.map_singleton, List.foldl_concat,
      toNat_saturatingAdd, ih, Finset.sum_range_succ]
    omega

namespace Contents

variable {c c' : Contents} {sender : Owner} {fs : List Referral}

/-- These are the confirmed referrals of a sender, each once. -/
structure ConfirmedRows (c : Contents) (sender : Owner) (fs : List Referral) : Prop where
  nodup : fs.Nodup
  mem : ∀ f, f ∈ fs ↔ c.Refers f ∧ f.sender = sender ∧ f.status = .confirmed

namespace ConfirmedRows

/-- Rows that are confirmed stay those they are if none comes and none goes. -/
theorem congr (h : c.ConfirmedRows sender fs)
    (hsame : ∀ f, f.sender = sender → f.status = .confirmed → (c'.Refers f ↔ c.Refers f)) :
    c'.ConfirmedRows sender fs where
  nodup := h.nodup
  mem f := by
    rw [h.mem]
    constructor
    · rintro ⟨hf, hsender, hstatus⟩
      exact ⟨(hsame f hsender hstatus).2 hf, hsender, hstatus⟩
    · rintro ⟨hf, hsender, hstatus⟩
      exact ⟨(hsame f hsender hstatus).1 hf, hsender, hstatus⟩

/-- A referral that is confirmed comes behind those that were. -/
theorem refer (h : c.ConfirmedRows sender fs) {f f' : Referral} (hf : c.Refers f)
    (hopen : f.status ≠ .confirmed) (hreceiver : f'.receiver = f.receiver)
    (hsender : f'.sender = sender) (hstatus : f'.status = .confirmed) :
    (c.refer f').ConfirmedRows sender (fs ++ [f']) := by
  -- the row was open before, and so its receiver has no other confirmed row
  have hother : ∀ g ∈ fs, g.receiver ≠ f'.receiver := by
    intro g hg hsame
    obtain ⟨hrefers, -, hconfirmed⟩ := (h.mem g).1 hg
    rw [hf.eq hrefers (hsame.trans hreceiver)] at hconfirmed
    exact hopen hconfirmed
  refine ⟨?_, fun g => ?_⟩
  · refine List.nodup_append.2 ⟨h.nodup, List.nodup_singleton f', ?_⟩
    intro g hg g' hg' heq
    rw [List.mem_singleton] at hg'
    exact hother g hg (by rw [heq, hg'])
  · rw [List.mem_append, List.mem_singleton, refers_refer]
    constructor
    · rintro (hg | rfl)
      · obtain ⟨hrefers, hs, hc⟩ := (h.mem g).1 hg
        exact ⟨.inr ⟨hother g hg, hrefers⟩, hs, hc⟩
      · exact ⟨.inl rfl, hsender, hstatus⟩
    · rintro ⟨rfl | ⟨-, hrefers⟩, hs, hc⟩
      · exact .inr rfl
      · exact .inl ((h.mem g).2 ⟨hrefers, hs, hc⟩)

/-- Confirmed rows are those that are counted. -/
theorem perm_filter (h : c.ConfirmedRows sender fs) {gs : List Referral} (hnodup : gs.Nodup)
    (hmem : ∀ f, f ∈ gs ↔ c.Refers f ∧ f.sender = sender) :
    (gs.filter (·.status == .confirmed)).Perm fs := by
  refine (List.perm_ext_iff_of_nodup (hnodup.filter _) h.nodup).2 fun f => ?_
  rw [List.mem_filter, hmem, h.mem, beq_iff_eq, and_assoc]

theorem length_eq (h : c.ConfirmedRows sender fs) {n : Nat} (hcount : c.ConfirmedCount sender n) :
    n = fs.length := by
  obtain ⟨gs, hnodup, hmem, rfl⟩ := hcount
  rw [List.countP_eq_length_filter, (h.perm_filter hnodup hmem).length_eq]

end ConfirmedRows

/-- The rewards of the confirmed referrals of a sender are those of the first places of
the schedule. -/
def OnSchedule (policy : RewardPolicy) (fs : List Referral) : Prop :=
  (fs.map (·.senderReward)).Perm
    ((List.range fs.length).map fun place => some (policy.senderReward place))

/-- The reward at the next place goes on with the schedule. -/
theorem OnSchedule.concat {policy : RewardPolicy} (h : OnSchedule policy fs) {f : Referral}
    (hreward : f.senderReward = some (policy.senderReward fs.length)) :
    OnSchedule policy (fs ++ [f]) := by
  unfold OnSchedule at h ⊢
  rw [List.map_append, List.length_append, List.length_singleton, List.range_succ,
    List.map_append, List.map_singleton, List.map_singleton, hreward]
  exact h.append_right _

/-- The rewards themselves, in whatever order. -/
theorem OnSchedule.filterMap {policy : RewardPolicy} (h : OnSchedule policy fs) :
    (fs.filterMap (·.senderReward)).Perm ((List.range fs.length).map policy.senderReward) := by
  have hrewards := List.Perm.filterMap id h
  rw [List.filterMap_map, List.filterMap_map] at hrewards
  rw [← List.filterMap_eq_map]
  exact hrewards

/-- Nothing is fixed for a referral before it is confirmed. -/
def Unfixed (c : Contents) : Prop :=
  ∀ o f, c.referral o = some f → f.status ≠ .confirmed → f.senderReward = none

namespace Unfixed

theorem refer (h : c.Unfixed) {f : Referral} (hf : f.status ≠ .confirmed → f.senderReward = none) :
    (c.refer f).Unfixed := by
  intro o g hg hopen
  rw [referral_refer] at hg
  split at hg
  · cases hg
    exact hf hopen
  · exact h o g hg hopen

theorem invite (h : c.Unfixed) (receiver : Owner) (now : Timestamp) (sender? : Option Owner) :
    (c.invite receiver now sender?).Unfixed := by
  cases sender? with
  | none => exact h
  | some sender => exact h.refer fun _ => rfl

end Unfixed

/-- Rewards are fixed along the schedule, and only for referrals that are confirmed. -/
structure Scheduled (c : Contents) (policy : RewardPolicy) : Prop where
  rows : ∀ sender, ∃ fs, c.ConfirmedRows sender fs ∧ OnSchedule policy fs
  unfixed : c.Unfixed

theorem scheduled_empty (policy : RewardPolicy) : empty.Scheduled policy where
  rows _ := ⟨[], ⟨List.nodup_nil, fun _ => ⟨nofun, fun h => nomatch h.1⟩⟩, .nil⟩
  unfixed := nofun

end Contents

namespace Step

variable {settings : Settings} {now : Timestamp} {b b' : Books} {entry : Entry}

/-- No entry but its payout confirms a referral, and none takes a confirmed one away. -/
theorem refers_iff (h : Step settings now b entry b') {f : Referral}
    (hstatus : f.status = .confirmed) (hother : ∀ p, entry = .paid p → p.receiver ≠ f.receiver) :
    b'.contents.Refers f ↔ b.contents.Refers f := by
  constructor
  · intro hf
    rcases h.referral_confirmed hf hstatus with hold | ⟨p, hp, hreceiver⟩
    · exact hold
    · exact absurd hreceiver (hother p hp)
  · intro hf
    obtain ⟨f', hf', hgrows⟩ := h.evolves.referral hf
    rw [hgrows.kept hstatus] at hf'
    exact hf'

/-- **A payout fixes the reward at the next place** of its sender. -/
theorem rows_of_paid {p : Payout} (h : Step settings now b (.paid p) b') {sender : Owner}
    {fs : List Referral} (hrows : b.contents.ConfirmedRows sender fs)
    (hfs : Contents.OnSchedule settings.referral fs) :
    ∃ fs', b'.contents.ConfirmedRows sender fs' ∧ Contents.OnSchedule settings.referral fs' := by
  cases h with
  | @paid f receiving sending n accepted refused _ held installed _ _ _ earlier payout _ =>
    subst payout
    have hopen : f.status ≠ .confirmed := by rw [installed]; decide
    by_cases hsender : f.sender = sender
    · subst hsender
      have hn := hrows.length_eq earlier
      subst hn
      exact ⟨_, hrows.refer held hopen rfl rfl rfl, hfs.concat rfl⟩
    · -- the row of another sender is not among these
      refine ⟨fs, hrows.congr fun g hg hconfirmed => ?_, hfs⟩
      rw [Contents.refers_refer]
      constructor
      · rintro (rfl | ⟨-, hrefers⟩)
        · exact absurd hg hsender
        · exact hrefers
      · intro hrefers
        refine .inr ⟨fun hreceiver => ?_, hrefers⟩
        rw [held.eq hrefers hreceiver] at hconfirmed
        exact hopen hconfirmed

/-- Every entry but a payout leaves open what is open. -/
theorem unfixed (h : Step settings now b entry b') (hb : b.contents.Unfixed) :
    b'.contents.Unfixed := by
  -- putting a registration leaves the referrals as they are
  have hput : ∀ r : Registration, (b.contents.put r).Unfixed := fun _ => hb
  cases h with
  | nothing | stakeRefused _ _ | stakeLost _ _ _ | grantRefused _ _ _ | grantLost _ _ _ => exact hb
  | confirmed _ _ | granted _ _ _ _ _ _ _ _ _ => exact hput _
  | enrolled _ _ _ _ _ _ _ _ | renewed _ _ _ _ _ | tracked _ _ _ _ =>
    exact Contents.Unfixed.invite (hput _) _ _ _
  | @installed f _ held start _ =>
    refine hb.refer fun _ => hb f.receiver f held ?_
    rw [start]
    decide
  | paid _ _ _ _ _ _ _ _ => exact hb.refer fun hopen => absurd rfl hopen

/-- **Every entry keeps to the schedule.** -/
theorem scheduled (h : Step settings now b entry b') (hb : b.contents.Scheduled settings.referral) :
    b'.contents.Scheduled settings.referral where
  rows sender := by
    obtain ⟨fs, hrows, hfs⟩ := hb.rows sender
    by_cases hpaid : ∃ p, entry = .paid p
    · obtain ⟨p, rfl⟩ := hpaid
      exact h.rows_of_paid hrows hfs
    · refine ⟨fs, hrows.congr fun f _ hstatus => ?_, hfs⟩
      exact h.refers_iff hstatus fun p hp => absurd ⟨p, hp⟩ hpaid
  unfixed := h.unfixed hb.unfixed

end Step

/-! ## Reports -/

/-- **What is counted of a sender** is the number of places and the sum over them. -/
theorem Contents.Scheduled.stats {c : Contents} {policy : RewardPolicy} (h : c.Scheduled policy)
    {sender : Owner} {fs gs : List Referral} (hrows : c.ConfirmedRows sender fs)
    (hfs : OnSchedule policy fs) (hnodup : gs.Nodup)
    (hmem : ∀ f, f ∈ gs ↔ c.Refers f ∧ f.sender = sender) :
    (ReferralStats.ofList gs).confirmed = fs.length ∧
      (ReferralStats.ofList gs).reward.units.toNat = min TokenAmount.max.units.toNat
        (∑ place ∈ Finset.range fs.length, (policy.senderReward place).units.toNat) := by
  have hperm := hrows.perm_filter hnodup hmem
  constructor
  · show gs.countP (·.status == .confirmed) = fs.length
    rw [List.countP_eq_length_filter, hperm.length_eq]
  · -- only confirmed rows have a reward, and the order of the rows does not matter
    have hconfirmed : gs.filterMap (·.senderReward) =
        (gs.filter (·.status == .confirmed)).filterMap (·.senderReward) := by
      rw [List.filterMap_filter]
      refine List.filterMap_congr fun f hf => ?_
      split
      · rfl
      · rename_i hstatus
        exact h.unfixed f.receiver f ((hmem f).1 hf).1 (by simpa using hstatus)
    have hrewards : (gs.filterMap (·.senderReward)).Perm
        ((List.range fs.length).map policy.senderReward) := by
      rw [hconfirmed]
      exact (hperm.filterMap _).trans hfs.filterMap
    rw [← TokenAmount.toNat_foldl_saturatingAdd]
    show ((gs.filterMap (·.senderReward)).foldl TokenAmount.saturatingAdd .zero).units.toNat = _
    rw [hrewards.foldl_eq' (fun a _ b _ c => c.saturatingAdd_right_comm a b) _]

/-- How the confirmed referrals of a sender stand with the schedule of the settings. -/
structure World.PaidOnSchedule {σ : Type} [Store σ] [StoreView σ] (settings : Settings)
    (w : World σ) (sender : Owner) (rows : List Referral) : Prop where
  /-- These are all the confirmed referrals of the sender, each once. -/
  confirmed : (contents w.store).ConfirmedRows sender rows
  /-- The rewards that were fixed for them are those of the first places. -/
  rewards : (rows.map (·.senderReward)).Perm
    ((List.range rows.length).map fun place => some (settings.referral.senderReward place))
  /-- What is reported of the sender is their number and the sum of these rewards, cut off
  at the largest word. For somebody who has no such referral the text has to be that of an
  owner: a shorter one could be how another sender begins. -/
  reported : sender.IsHash ∨ rows ≠ [] → .referralsBySender ∉ failing w.store →
    ∃ stats, (senderStats sender w).1 = .ok stats ∧ stats.confirmed = rows.length ∧
      stats.reward.units.toNat = min (UInt64.size - 1)
        (∑ place ∈ Finset.range rows.length, (settings.referral.senderReward place).units.toNat)

/-- What is on schedule in the store is so in the reports. -/
theorem World.Good.paidOnSchedule {σ : Type} [Store σ] [LawfulStore σ] {settings : Settings}
    {w : World σ} (hw : w.Good) (h : (contents w.store).Scheduled settings.referral)
    (sender : Owner) : ∃ rows, w.PaidOnSchedule settings sender rows := by
  obtain ⟨rows, hrows, hschedule⟩ := h.rows sender
  refine ⟨rows, hrows, hschedule, fun hsender hquiet => ?_⟩
  -- whoever sent a referral is an owner
  have hhash : sender.IsHash := by
    rcases hsender with hhash | hne
    · exact hhash
    · obtain ⟨f, hf⟩ := List.exists_mem_of_ne_nil rows hne
      obtain ⟨hrefers, rfl, -⟩ := (hrows.mem f).1 hf
      exact ((LawfulStore.coherent hw.sound).parties hrefers).sender
  obtain ⟨gs, hlisted, hnodup, hmem⟩ :=
    (LawfulStore.referralsBySender hw.sound hhash).eq_ok hquiet
  have hread : Store.referralStats w.store sender = .ok (.ofList gs) := by
    unfold Store.referralStats
    rw [hlisted]
    rfl
  refine ⟨.ofList gs, ?_, h.stats hrows hschedule hnodup hmem⟩
  exact congrArg Prod.fst (ServiceM.read_of_ok (f := (Store.referralStats · sender)) hread)

/-! ## Whole runs -/

/-- **The rewards of every sender follow the schedule**, in every run on every store. -/
theorem paidOnSchedule_run (kind : StoreKind) (settings : Settings) (clock : Timestamp)
    (acts : List Act) (sender : Owner) :
    ∃ rows, ((World.start clock : World kind.State).run settings acts).PaidOnSchedule settings
      sender rows := by
  have hgood : (World.start clock : World kind.State).Good := World.good_start clock
  refine (World.good_run settings hgood acts).paidOnSchedule ?_ sender
  refine World.books_run (P := fun b => b.contents.Scheduled settings.referral) hgood ?_
    (fun _ _ _ hb => hb) (fun _ _ _ _ hb hstep => hstep.scheduled hb) acts
  rw [World.books_start]
  exact Contents.scheduled_empty _

end Onboarding
