import Onboarding.Proofs.Service.Evolution
import Onboarding.Proofs.Service.Memos
import Onboarding.Proofs.Service.Run
/-!
# Rewards — each side of a referral is paid once, and what was fixed

A referral is paid from three places: after a confirmation, after an installation, and
when somebody asks. Whoever comes first moves the referral to `confirmed`, and whoever
comes later finds nothing to pay. So for each side the transfers with its memo are none
while the referral is open, and at most the one that was fixed once it is confirmed:
that is `Balanced`, which every entry keeps (`Step.balanced`).
-/

namespace Onboarding

/-- The two sides of a referral. -/
inductive Side where
  | sender
  | receiver
deriving DecidableEq, Repr

namespace Side

/-- The memo of the reward for a side of the referral of a receiver. -/
def memo : Side → Owner → String
  | sender => Payout.senderMemo
  | receiver => Payout.receiverMemo

/-- Who is on this side. -/
def party : Side → Referral → Owner
  | sender => Referral.sender
  | receiver => Referral.receiver

/-- The reward that was fixed for this side. -/
def reward : Side → Referral → Option TokenAmount
  | sender => Referral.senderReward
  | receiver => Referral.receiverReward

/-- The purpose of the transfer to this side. -/
def purpose : Side → Purpose
  | sender => .sender
  | receiver => .receiver

theorem memo_eq (side : Side) (o : Owner) : side.memo o = side.purpose.memo o.text := by
  cases side <;> rfl

/-- The transfer that a payout makes to this side. -/
def transfer (p : Payout) : Side → Transfer
  | sender => ⟨p.senderAddress, p.senderReward, Payout.senderMemo p.receiver⟩
  | receiver => ⟨p.receiverAddress, p.receiverReward, Payout.receiverMemo p.receiver⟩

@[simp] theorem memo_transfer (side : Side) (p : Payout) :
    (side.transfer p).memo = side.memo p.receiver := by
  cases side <;> rfl

/-- A memo tells the side and the receiver. -/
theorem memo_inj {side side' : Side} {o o' : Owner} :
    side.memo o = side'.memo o' ↔ side = side' ∧ o = o' := by
  rw [memo_eq, memo_eq, Purpose.memo_inj, Owner.text_inj]
  cases side <;> cases side' <;> simp [purpose]

theorem stakeMemo_ne (side : Side) (o o' : Owner) : Confirmation.stakeMemo o' ≠ side.memo o := by
  rw [memo_eq, Purpose.stakeMemo_eq, Ne, Purpose.memo_inj]
  cases side <;> simp [purpose]

theorem faucetMemo_ne (side : Side) (o : Owner) (a : WalletAddress) :
    Faucet.memo a ≠ side.memo o := by
  rw [memo_eq, Purpose.faucetMemo_eq, Ne, Purpose.memo_inj]
  cases side <;> simp [purpose]

/-- What a side is owed: a reward of nothing is not transferred. -/
def owed (t : Transfer) : List Transfer := if t.amount.isZero then [] else [t]

end Side

/-- The transfers with the memo of a side. -/
def Books.rewards (b : Books) (side : Side) (receiver : Owner) : List Transfer :=
  b.transfers.filter (·.memo = side.memo receiver)

/-! ## What the entries transfer -/

namespace Sent

variable {due accepted refused : List Transfer}

/-- What is accepted was due, in that order, and is not nothing. -/
theorem sublist (h : Sent due accepted refused) :
    accepted.Sublist (due.filter fun t => !t.amount.isZero) := by
  induction h with
  | nil => exact .slnil
  | skipped hzero _ ih => simpa [List.filter_cons, hzero] using ih
  | accepted hzero _ ih => simpa [List.filter_cons, hzero] using ih
  | refused hzero _ ih => simpa [List.filter_cons, hzero] using ih.cons _

/-- Where nothing is refused, everything that is due is accepted. -/
theorem eq_due (h : Sent due accepted refused) (hrefused : refused = []) :
    accepted = due.filter fun t => !t.amount.isZero := by
  induction h with
  | nil => rfl
  | skipped hzero _ ih => simpa [List.filter_cons, hzero] using ih hrefused
  | accepted hzero _ ih => simpa [List.filter_cons, hzero] using ih hrefused
  | refused _ _ _ => cases hrefused

end Sent

/-- A payout owes each side one transfer. -/
theorem Payout.filter_transfers (p : Payout) (side : Side) :
    p.transfers.filter (·.memo = side.memo p.receiver) = [side.transfer p] := by
  have hother : Side.memo .sender p.receiver ≠ Side.memo .receiver p.receiver := by
    rw [Ne, Side.memo_inj]
    exact fun h => nomatch h.1
  show [Side.transfer p .sender, Side.transfer p .receiver].filter _ = _
  cases side
  · simp [hother.symm]
  · simp [hother]

/-- What becomes of what a payout owes a side. -/
theorem Sent.filter_memo {p : Payout} {accepted refused : List Transfer}
    (h : Sent p.transfers accepted refused) (side : Side) :
    (accepted.filter (·.memo = side.memo p.receiver)).Sublist (Side.owed (side.transfer p)) ∧
      (refused = [] → accepted.filter (·.memo = side.memo p.receiver) =
        Side.owed (side.transfer p)) := by
  have hdue : (p.transfers.filter fun t => !t.amount.isZero).filter
      (·.memo = side.memo p.receiver) = Side.owed (side.transfer p) := by
    rw [List.filter_comm, Payout.filter_transfers]
    unfold Side.owed
    cases hzero : (side.transfer p).amount.isZero <;> simp [hzero]
  constructor
  · rw [← hdue]
    exact h.sublist.filter _
  · intro hrefused
    rw [h.eq_due hrefused, hdue]

/-- A payout owes nobody else. -/
theorem Payout.eq_transfer {p : Payout} {t : Transfer} (h : t ∈ p.transfers) :
    ∃ side : Side, t = side.transfer p := by
  simp only [transfers, List.mem_cons, List.not_mem_nil, or_false] at h
  rcases h with rfl | rfl
  · exact ⟨.sender, rfl⟩
  · exact ⟨.receiver, rfl⟩

/-- A transfer that an entry may make. -/
inductive Entry.Sends (settings : Settings) : Entry → Transfer → Prop
  | stake {r : Registration} : Sends settings (.confirmed r) (settings.stake r)
  | lostStake {r : Registration} : Sends settings (.stakeLost r) (settings.stake r)
  | reward {p : Payout} (side : Side) : Sends settings (.paid p) (side.transfer p)
  | grant {r : Registration} {stake : TokenAmount} :
    Sends settings (.granted r) (Faucet.grant stake r.address)
  | lostGrant {address : WalletAddress} {stake : TokenAmount} :
    Sends settings (.grantLost address) (Faucet.grant stake address)

namespace Step

variable {settings : Settings} {now : Timestamp} {b b' : Books} {entry : Entry} {side : Side}
  {receiver : Owner}

/-- **What an entry transfers** goes behind what was transferred before. -/
theorem sends (h : Step settings now b entry b') :
    ∃ sent, b'.transfers = b.transfers ++ sent ∧ ∀ t ∈ sent, entry.Sends settings t := by
  cases h with
  | nothing | enrolled _ _ _ _ _ _ _ _ | renewed _ _ _ _ _ | tracked _ _ _ _ | stakeRefused _ _
  | installed _ _ _ | grantRefused _ _ _ => exact ⟨[], (List.append_nil _).symm, nofun⟩
  | stakeLost _ _ _ => exact ⟨_, rfl, fun t ht => List.mem_singleton.1 ht ▸ .lostStake⟩
  | confirmed _ _ => exact ⟨_, rfl, fun t ht => List.mem_singleton.1 ht ▸ .stake⟩
  | grantLost _ _ _ => exact ⟨_, rfl, fun t ht => List.mem_singleton.1 ht ▸ .lostGrant⟩
  | granted _ _ _ _ _ _ _ _ _ => exact ⟨_, rfl, fun t ht => List.mem_singleton.1 ht ▸ .grant⟩
  | paid _ _ _ _ _ _ _ sent =>
    refine ⟨_, rfl, fun t ht => ?_⟩
    have hdue := (List.mem_filter.1 (sent.sublist.subset ht)).1
    obtain ⟨side, rfl⟩ := Payout.eq_transfer hdue
    exact .reward side

/-- A choice of transfers that an entry makes none of is left alone by it. -/
theorem filter_transfers (h : Step settings now b entry b') {chosen : Transfer → Bool}
    (hnone : ∀ t, entry.Sends settings t → chosen t = false) :
    b'.transfers.filter chosen = b.transfers.filter chosen := by
  obtain ⟨sent, htransfers, hsent⟩ := h.sends
  have hnil : sent.filter chosen = [] :=
    List.filter_eq_nil_iff.2 fun t ht => by rw [hnone t (hsent t ht)]; decide
  rw [htransfers, List.filter_append, hnil, List.append_nil]

/-- Refused transfers are not forgotten. -/
theorem refusals_eq_nil (h : Step settings now b entry b') (hb : b'.refusals = []) :
    b.refusals = [] := by
  cases h <;> first | exact hb | exact (List.append_eq_nil_iff.1 hb).1

/-- Only the payout of a referral transfers its rewards. -/
theorem rewards_eq (h : Step settings now b entry b')
    (hother : ∀ p, entry = .paid p → p.receiver ≠ receiver) :
    b'.rewards side receiver = b.rewards side receiver := by
  refine h.filter_transfers fun t ht => decide_eq_false ?_
  cases ht with
  | stake | lostStake => exact side.stakeMemo_ne receiver _
  | grant | lostGrant => exact side.faucetMemo_ne receiver _
  | reward side' =>
    rw [Side.memo_transfer, Side.memo_inj]
    exact fun hmemo => hother _ rfl hmemo.2

end Step

/-! ## The balance of a side -/

/-- Nothing was transferred for a referral that is open; for one that is confirmed the
reward that was fixed, unless it was refused. -/
inductive Books.Balanced (b : Books) (side : Side) (receiver : Owner) : Prop
  | unpaid (status : ∀ f, b.contents.referral receiver = some f → f.status ≠ .confirmed)
      (none : b.rewards side receiver = [])
  | settled {f : Referral} {r : Registration} {reward : TokenAmount}
      (row : b.contents.referral receiver = some f)
      (status : f.status = .confirmed)
      (fixed : side.reward f = some reward)
      (party : b.contents.registration (side.party f) = some r)
      (once : (b.rewards side receiver).Sublist (Side.owed ⟨r.address, reward, side.memo receiver⟩))
      (complete : b.refusals = [] →
        b.rewards side receiver = Side.owed ⟨r.address, reward, side.memo receiver⟩)

namespace Step

variable {settings : Settings} {now : Timestamp} {b b' : Books} {entry : Entry} {side : Side}
  {receiver : Owner}

/-- **A payout settles both sides**, if nothing was transferred before. -/
theorem balanced_of_paid {p : Payout} (h : Step settings now b (.paid p) b')
    (hnone : b.rewards side p.receiver = []) : b'.Balanced side p.receiver := by
  cases h with
  | @paid f receiving sending n accepted refused _ _ _ hreceiver _ hsender _ payout sent =>
    obtain ⟨hsublist, hcomplete⟩ := sent.filter_memo side
    have hrewards : (b.transfers ++ accepted).filter (·.memo = side.memo p.receiver) =
        accepted.filter (·.memo = side.memo p.receiver) := by
      rw [List.filter_append, ← Books.rewards, hnone, List.nil_append]
    rw [← hrewards] at hsublist hcomplete
    have hrefused : b.refusals ++ refused = [] → refused = [] :=
      fun hnil => (List.append_eq_nil_iff.1 hnil).2
    have hrow := Contents.referral_refer_self b.contents { f with
      status := .confirmed
      confirmedAt := some now
      senderReward := some p.senderReward
      receiverReward := some p.receiverReward }
    subst payout
    cases side with
    | sender => exact .settled hrow rfl rfl hsender hsublist (hcomplete ∘ hrefused)
    | receiver => exact .settled hrow rfl rfl hreceiver hsublist (hcomplete ∘ hrefused)

/-- **Every entry keeps the balance of every side.** -/
theorem balanced (h : Step settings now b entry b') (hb : b.Balanced side receiver) :
    b'.Balanced side receiver := by
  -- the payout of this referral settles both sides, and every other entry leaves them alone
  by_cases hpaid : ∃ p, entry = .paid p ∧ p.receiver = receiver
  · obtain ⟨p, rfl, rfl⟩ := hpaid
    cases hb with
    | unpaid _ none => exact h.balanced_of_paid none
    -- a referral that is settled is confirmed, and a payout finds it installed
    | settled row status _ _ _ _ =>
      cases h with
      | paid held installed _ _ _ _ payout _ =>
        rw [payout] at row
        rw [Contents.Refers, row] at held
        cases held
        rw [status] at installed
        cases installed
  have hother : ∀ p, entry = .paid p → p.receiver ≠ receiver :=
    fun p hp hreceiver => hpaid ⟨p, hp, hreceiver⟩
  have hrewards : b'.rewards side receiver = b.rewards side receiver := h.rewards_eq hother
  cases hb with
  | unpaid status none =>
    refine .unpaid (fun f hf hstatus => ?_) (hrewards.trans none)
    rcases h.referral_confirmed hf hstatus with hold | hnew
    · exact status f hold hstatus
    · exact hpaid hnew
  | @settled f r reward row status fixed party once complete =>
    obtain ⟨f', hf', hgrows⟩ := h.evolves.referral row
    rw [hgrows.kept status] at hf'
    obtain ⟨r', hr', hsame⟩ := h.evolves.registration party
    -- addresses of parties do not change, and so the transfer is still the one that was owed
    rw [← hsame.address_eq, ← hrewards] at once complete
    exact .settled hf' status fixed hr' once fun hnone => complete (h.refusals_eq_nil hnone)

end Step

/-! ## Whole runs -/

/-- How a side of a referral stands with the chain. -/
structure Books.Rewarded (b : Books) (side : Side) (receiver : Owner) : Prop where
  /-- A side is paid once. -/
  once : (b.rewards side receiver).length ≤ 1
  /-- It is paid for a confirmed referral, what was fixed, to the wallet it registered. -/
  fixed : ∀ t ∈ b.rewards side receiver, ∃ f r, b.contents.referral receiver = some f ∧
    f.status = .confirmed ∧ side.reward f = some t.amount ∧
    b.contents.registration (side.party f) = some r ∧ t.address = r.address
  /-- If no transfer was refused, it is paid for every confirmed referral, unless the
  reward is nothing. -/
  complete : b.refusals = [] → ∀ f, b.contents.referral receiver = some f →
    f.status = .confirmed → ∃ reward, side.reward f = some reward ∧
      (b.rewards side receiver).length = if reward.isZero then 0 else 1

namespace Books.Balanced

variable {b : Books} {side : Side} {receiver : Owner}

theorem start (side : Side) (receiver : Owner) :
    (⟨.empty, [], [], [], [], []⟩ : Books).Balanced side receiver :=
  .unpaid nofun rfl

/-- A side that is balanced is paid as it should be. -/
theorem rewarded (h : b.Balanced side receiver) : b.Rewarded side receiver := by
  cases h with
  | unpaid status none =>
    refine ⟨by rw [none]; decide, fun t ht => ?_, fun _ f hf hstatus => ?_⟩
    · rw [none] at ht
      cases ht
    · exact absurd hstatus (status f hf)
  | @settled f r reward row status fixed party once complete =>
    have hlength : (Side.owed ⟨r.address, reward, side.memo receiver⟩).length =
        if reward.isZero then 0 else 1 := by
      unfold Side.owed
      dsimp only
      split <;> rfl
    refine ⟨?_, fun t ht => ?_, fun hnil f' hf' _ => ?_⟩
    · refine Nat.le_trans once.length_le ?_
      rw [hlength]
      split <;> decide
    · have howed := once.subset ht
      unfold Side.owed at howed
      split at howed
      · cases howed
      · rw [List.mem_singleton] at howed
        subst howed
        exact ⟨f, r, row, status, fixed, party, rfl⟩
    · rw [row] at hf'
      cases hf'
      refine ⟨reward, fixed, ?_⟩
      rw [complete hnil, hlength]

end Books.Balanced

/-- **Each side of a referral is paid once, and what was fixed**, in every run on every
store, whatever fails around the service. -/
theorem rewarded_run (kind : StoreKind) (settings : Settings) (clock : Timestamp)
    (acts : List Act) (side : Side) (receiver : Owner) :
    ((World.start clock : World kind.State).run settings acts).books.Rewarded side receiver := by
  refine Books.Balanced.rewarded ?_
  refine World.books_run (P := fun b => b.Balanced side receiver) (World.good_start clock) ?_ ?_ ?_
    acts
  · rw [World.books_start]
    exact .start side receiver
  · intro b pending failing hb
    cases hb with
    | unpaid status none => exact .unpaid status none
    | settled row status fixed party once complete =>
      exact .settled row status fixed party once complete
  · intro now b entry b' hb hstep
    exact hstep.balanced hb

end Onboarding
