import Onboarding.Proofs.Service.Race
/-!
# Accounts — what a payout under way has tried

The rewards of a referral are fixed in one transaction, and the two transfers follow it
one by one, with anything in between. `Books.Accounted` says how far that has come: before
the transaction nothing was tried for the referral and no task pays it; after it one task
does, and for each side the transfer is either still due there or was tried once. Every
move keeps that (`Stir.accounted`), whatever else is under way.
-/

namespace Onboarding

/-- The transfers that were tried for a side of a referral, first those accepted. -/
def Books.attempts (b : Books) (side : Side) (receiver : Owner) : List Transfer :=
  (b.transfers ++ b.refusals).filter (·.memo = side.memo receiver)

/-- The referral of a receiver is paid by this task. -/
def Task.pays (receiver : Owner) : Task → Bool
  | paying p _ _ => p.receiver = receiver
  | _ => false

theorem Task.Fresh.pays {task : Task} (h : task.Fresh) (o : Owner) : task.pays o = false := by
  cases task <;> first | rfl | exact h.elim

/-- The referral was confirmed with the reward that a payout has for a side, and the payout
sends it to the wallet that is registered there. -/
structure Contents.Fixed (c : Contents) (f : Referral) (p : Payout) (side : Side) : Prop where
  reward : side.reward f = some (side.transfer p).amount
  party : ∃ r, c.registration (side.party f) = some r ∧ (side.transfer p).address = r.address

/-- How a side stands while these transfers of a payout are due: its own is due and was not
tried, or it was tried once. A transfer of nothing counts as tried. -/
inductive Books.Stands (b : Books) (p : Payout) (due : List Transfer) (side : Side) : Prop
  | waiting (due : side.transfer p ∈ due) (none : b.attempts side p.receiver = [])
  | tried (gone : side.transfer p ∉ due)
      (once : b.attempts side p.receiver = Side.owed (side.transfer p))

/-- How the referral of a receiver stands with those who pay it. -/
inductive Books.Accounted (b : Books) (ts : List Task) (receiver : Owner) : Prop
  | unpaid (status : ∀ f, b.contents.referral receiver = some f → f.status ≠ .confirmed)
      (nobody : ts.filter (·.pays receiver) = [])
      (none : ∀ side, b.attempts side receiver = [])
  | paid {f : Referral} {p : Payout} {due : List Transfer} {failure : Option ChainError}
      (row : b.contents.referral receiver = some f)
      (status : f.status = .confirmed)
      (receiver_eq : p.receiver = receiver)
      (payer : ts.filter (·.pays receiver) = [.paying p due failure])
      (fixed : ∀ side, b.contents.Fixed f p side)
      (rest : due.Sublist p.transfers)
      (stands : ∀ side, b.Stands p due side)

/-! ## Attempts -/

section Attempts

variable {b b' : Books} {side : Side} {receiver : Owner} {accepted refused : List Transfer}

theorem Sent.append_eq_owed {t : Transfer} (h : Sent [t] accepted refused) :
    accepted ++ refused = Side.owed t := by
  unfold Side.owed
  cases h with
  | skipped hzero hnil | accepted hzero hnil | refused hzero hnil =>
    cases hnil
    simp [hzero]

/-- Nothing is tried for a side by transfers with other memos. -/
theorem Books.attempts_of_other (htransfers : b'.transfers = b.transfers ++ accepted)
    (hrefusals : b'.refusals = b.refusals ++ refused)
    (hother : ∀ t ∈ accepted ++ refused, t.memo ≠ side.memo receiver) :
    b'.attempts side receiver = b.attempts side receiver := by
  have hnone : ∀ ts, ts ⊆ accepted ++ refused → ts.filter (·.memo = side.memo receiver) = [] :=
    fun ts hts => List.filter_eq_nil_iff.2 fun t ht => by simpa using hother t (hts ht)
  simp only [attempts, htransfers, hrefusals, List.filter_append]
  rw [hnone accepted (List.subset_append_left _ _), hnone refused (List.subset_append_right _ _),
    List.append_nil, List.append_nil]

/-- The first transfers for a side are its attempts. -/
theorem Books.attempts_of_none (htransfers : b'.transfers = b.transfers ++ accepted)
    (hrefusals : b'.refusals = b.refusals ++ refused) (hnone : b.attempts side receiver = []) :
    b'.attempts side receiver = (accepted ++ refused).filter (·.memo = side.memo receiver) := by
  simp only [attempts, List.filter_append, List.append_eq_nil_iff] at hnone
  simp only [attempts, htransfers, hrefusals, List.filter_append, hnone, List.nil_append]

end Attempts

/-- The transfers of a payout are told apart by their memos. -/
theorem Side.transfer_inj {side side' : Side} {p : Payout} :
    side.transfer p = side'.transfer p ↔ side = side' := by
  constructor
  · intro h
    have hmemo := congrArg Transfer.memo h
    rw [memo_transfer, memo_transfer, memo_inj] at hmemo
    exact hmemo.1
  · rintro rfl
    rfl

theorem Payout.nodup_transfers (p : Payout) : p.transfers.Nodup := by
  have hne : Side.transfer p .sender ≠ Side.transfer p .receiver := by
    rw [Ne, Side.transfer_inj]
    decide
  exact List.nodup_cons.2 ⟨fun h => hne (List.mem_singleton.1 h), List.nodup_singleton _⟩

/-- What is sent for a side has the memo of that side. -/
theorem Side.memo_of_mem_owed {side : Side} {p : Payout} {t : Transfer}
    (h : t ∈ Side.owed (side.transfer p)) : t.memo = side.memo p.receiver := by
  unfold owed at h
  split at h
  · cases h
  · rw [List.mem_singleton.1 h, memo_transfer]

/-- **Trying a transfer that is due** leaves the other side as it stood. -/
theorem Books.Stands.try_next {b b' : Books} {p : Payout} {t : Transfer} {side : Side}
    {due accepted refused : List Transfer} (h : b.Stands p (t :: due) side)
    (hrest : (t :: due).Sublist p.transfers) (hsent : Sent [t] accepted refused)
    (htransfers : b'.transfers = b.transfers ++ accepted)
    (hrefusals : b'.refusals = b.refusals ++ refused) : b'.Stands p due side := by
  have hgone : t ∉ due := (List.nodup_cons.1 (hrest.nodup p.nodup_transfers)).1
  have howed := hsent.append_eq_owed
  obtain ⟨side', rfl⟩ := Payout.eq_transfer (hrest.subset List.mem_cons_self)
  by_cases hside : side' = side
  · subst hside
    cases h with
    | tried gone _ => exact absurd List.mem_cons_self gone
    | waiting _ none =>
      refine .tried hgone ?_
      rw [attempts_of_none htransfers hrefusals none, howed]
      exact List.filter_eq_self.2 fun t ht => decide_eq_true (Side.memo_of_mem_owed ht)
  · -- the transfer has the memo of the other side
    have hother : b'.attempts side p.receiver = b.attempts side p.receiver := by
      refine attempts_of_other htransfers hrefusals fun t ht hmemo => ?_
      rw [howed] at ht
      exact hside (Side.memo_inj.1 ((Side.memo_of_mem_owed ht).symm.trans hmemo)).1
    have hne : side.transfer p ≠ side'.transfer p := fun heq => hside (Side.transfer_inj.1 heq).symm
    cases h with
    | waiting due none =>
      exact .waiting ((List.mem_cons.1 due).resolve_left hne) (hother.trans none)
    | tried gone once =>
      exact .tried (fun hdue => gone (List.mem_cons_of_mem _ hdue)) (hother.trans once)

/-! ## Moves that pay nothing for a referral -/

section Carry

variable {b b' : Books} {ts ts' : List Task} {receiver : Owner}

theorem Contents.Evolves.fixed {c c' : Contents} (h : c.Evolves c') {f : Referral} {p : Payout}
    {side : Side} (hfixed : c.Fixed f p side) : c'.Fixed f p side := by
  obtain ⟨hreward, r, hr, haddress⟩ := hfixed
  obtain ⟨r', hr', hgrows⟩ := h.registration hr
  exact ⟨hreward, r', hr', haddress.trans hgrows.address_eq.symm⟩

/-- An account is carried on by whatever confirms, pays and tries nothing for the
referral. -/
theorem Books.Accounted.carry (h : b.Accounted ts receiver)
    (hevolves : b.contents.Evolves b'.contents)
    (hnew : ∀ f, b'.contents.referral receiver = some f → f.status = .confirmed →
      b.contents.referral receiver = some f)
    (hpayers : ts'.filter (·.pays receiver) = ts.filter (·.pays receiver))
    (htried : ∀ side, b'.attempts side receiver = b.attempts side receiver) :
    b'.Accounted ts' receiver := by
  cases h with
  | unpaid status nobody none =>
    refine .unpaid (fun f hf hstatus => status f (hnew f hf hstatus) hstatus)
      (hpayers.trans nobody) fun side => (htried side).trans (none side)
  | @paid f p due failure row status receiver_eq payer fixed rest stands =>
    obtain ⟨f', hf', hgrows⟩ := hevolves.referral row
    rw [hgrows.kept status] at hf'
    refine .paid hf' status receiver_eq (hpayers.trans payer)
      (fun side => hevolves.fixed (fixed side)) rest fun side => ?_
    subst receiver_eq
    cases stands side with
    | waiting due none => exact .waiting due ((htried side).trans none)
    | tried gone once => exact .tried gone ((htried side).trans once)

end Carry

namespace Step

variable {settings : Settings} {now : Timestamp} {b b' : Books} {entry : Entry}

/-- A call that is taken as one step tries no reward. -/
theorem attempts_eq (h : Step settings now b entry b') (hwhole : entry.Whole) (side : Side)
    (receiver : Owner) : b'.attempts side receiver = b.attempts side receiver := by
  have hgrant : ∀ stake address, ∀ t ∈ [Faucet.grant stake address] ++ [],
      t.memo ≠ side.memo receiver := by
    intro stake address t ht
    rw [List.append_nil, List.mem_singleton] at ht
    exact ht ▸ side.faucetMemo_ne receiver address
  cases h with
  | nothing | enrolled _ _ _ _ _ _ _ _ | renewed _ _ _ _ _ | tracked _ _ _ _ => rfl
  | grantRefused _ _ _ =>
    exact Books.attempts_of_other (List.append_nil _).symm rfl (hgrant _ _)
  | grantLost _ _ _ | granted _ _ _ _ _ _ _ _ _ =>
    exact Books.attempts_of_other rfl (List.append_nil _).symm (hgrant _ _)
  | confirmed _ _ | stakeRefused _ _ | stakeLost _ _ _ | installed _ _ _
  | paid _ _ _ _ _ _ _ _ => exact hwhole.elim

/-- What a payout finds, and what it makes of it. -/
theorem of_paid {p : Payout} (h : Step settings now b (.paid p) b') :
    (∃ f, b.contents.referral p.receiver = some f ∧ f.status = .installed) ∧
      ∃ f', b'.contents.referral p.receiver = some f' ∧ f'.status = .confirmed ∧
        ∀ side, b'.contents.Fixed f' p side := by
  cases h with
  | @paid f receiving sending n _ _ _ held installed receiver ready sender earlier payout sent =>
    subst payout
    refine ⟨⟨f, held, installed⟩, _, Contents.referral_refer_self _ _, rfl, fun side => ?_⟩
    cases side with
    | sender => exact ⟨rfl, sending, sender, rfl⟩
    | receiver => exact ⟨rfl, receiving, receiver, rfl⟩

end Step

/-! ## Steps of tasks -/

section Filter

variable {α : Type} {q : α → Bool} {before behind : List α} {a a' x : α}

/-- Items that are not chosen can be exchanged. -/
theorem filter_exchange (ha : q a = false) (ha' : q a' = false) :
    (before ++ a' :: behind).filter q = (before ++ a :: behind).filter q := by
  simp [List.filter_append, ha, ha']

/-- The one item that is chosen can be exchanged for another that is. -/
theorem filter_exchange_of_singleton (h : (before ++ a :: behind).filter q = [x])
    (ha : q a = true) (ha' : q a' = true) : x = a ∧ (before ++ a' :: behind).filter q = [a'] := by
  rw [List.filter_append, List.filter_cons_of_pos ha, List.append_eq_singleton_iff] at h
  rcases h with ⟨hbefore, hbehind⟩ | ⟨-, hnil⟩
  · obtain ⟨rfl, hnone⟩ := List.cons.inj hbehind
    exact ⟨rfl, by rw [List.filter_append, List.filter_cons_of_pos ha', hbefore, hnone]; rfl⟩
  · cases hnil

end Filter

section Tasks

variable {settings : Settings} {now : Timestamp} {b b' : Books} {before behind : List Task}
  {receiver : Owner} {p : Payout}

/-- A payout that is fixed opens the account of its referral. -/
theorem Books.Accounted.pay
    (hb : b.Accounted (before ++ .advancing p.receiver :: behind) p.receiver)
    (entry : Step settings now b (.paid p) b') :
    Books.Accounted { b with contents := b'.contents }
      (before ++ .paying p p.transfers none :: behind) p.receiver := by
  obtain ⟨⟨f, hf, hinstalled⟩, f', hf', hstatus, hfixed⟩ := entry.of_paid
  cases hb with
  | unpaid _ nobody untried =>
    rw [List.filter_append, List.filter_cons_of_neg Bool.false_ne_true] at nobody
    obtain ⟨hbefore, hbehind⟩ := List.append_eq_nil_iff.1 nobody
    have hpays : (Task.paying p p.transfers none).pays p.receiver = true := decide_eq_true rfl
    have hpayer : (before ++ .paying p p.transfers none :: behind).filter
        (·.pays p.receiver) = [.paying p p.transfers none] := by
      rw [List.filter_append, List.filter_cons_of_pos hpays, hbefore, hbehind, List.nil_append]
    refine .paid hf' hstatus rfl hpayer hfixed (List.Sublist.refl _) fun side => ?_
    refine .waiting ?_ (untried side)
    cases side <;> simp [Payout.transfers, Side.transfer]
  -- what is confirmed already is not found installed
  | paid row status _ _ _ _ _ =>
    cases Option.some.inj (hf.symm.trans row)
    cases hinstalled.symm.trans status

/-- A transfer that is tried moves the account of its referral on. -/
theorem Books.Accounted.try_next {t : Transfer} {due accepted refused : List Transfer}
    {failure failure' : Option ChainError} (hp : p.receiver = receiver)
    (hb : b.Accounted (before ++ .paying p (t :: due) failure :: behind) receiver)
    (sent : Sent [t] accepted refused) :
    Books.Accounted
      { b with transfers := b.transfers ++ accepted, refusals := b.refusals ++ refused }
      (before ++ .paying p due failure' :: behind) receiver := by
  have hpays : ∀ due failure, (Task.paying p due failure).pays receiver = true :=
    fun _ _ => decide_eq_true hp
  cases hb with
  | unpaid _ nobody _ =>
    have hmem := List.filter_eq_nil_iff.1 nobody (Task.paying p (t :: due) failure) (by simp)
    exact absurd (hpays _ _) hmem
  | paid row status receiver_eq payer fixed rest stands =>
    obtain ⟨hsame, hpayer⟩ := filter_exchange_of_singleton payer (hpays _ _) (hpays due failure')
    cases hsame
    exact .paid row status receiver_eq hpayer fixed ((List.sublist_cons_self _ _).trans rest)
      fun side => (stands side).try_next rest sent rfl rfl

/-- **A step of a task keeps the account of every referral**, of its own as of others. -/
theorem Turn.accounted {task task' : Task} (h : Turn settings now b task b' task')
    (htask : task.Faithful b.contents)
    (hb : b.Accounted (before ++ task :: behind) receiver) :
    b'.Accounted (before ++ task' :: behind) receiver := by
  have hevolves := h.evolves
  have hstake : ∀ (side : Side) address o, ∀ t ∈ [(⟨address, settings.initialStake,
      Confirmation.stakeMemo o⟩ : Transfer)], t.memo ≠ side.memo receiver := by
    intro side address o t ht
    exact List.mem_singleton.1 ht ▸ side.stakeMemo_ne receiver o
  cases h with
  | ended _ => exact hb
  | found _ _ _ | unfound _ | unrecorded _ | greeted | unmoved _ | noticed _ | unfixed _ =>
    exact hb.carry (.refl _) (fun _ hf _ => hf) (filter_exchange rfl rfl) fun _ => rfl
  | recorded entry | moved entry =>
    refine hb.carry hevolves (fun f hf hstatus => ?_) (filter_exchange rfl rfl) fun _ => rfl
    -- neither entry pays
    rcases entry.referral_confirmed hf hstatus with hold | ⟨p, hp, -⟩
    · exact hold
    · cases hp
  | staked =>
    refine hb.carry (.refl _) (fun _ hf _ => hf) (filter_exchange rfl rfl) fun side => ?_
    refine Books.attempts_of_other rfl (List.append_nil _).symm ?_
    rw [List.append_nil]
    exact hstake side _ _
  | unstaked =>
    refine hb.carry (.refl _) (fun _ hf _ => hf) (filter_exchange rfl rfl) fun side => ?_
    exact Books.attempts_of_other (List.append_nil _).symm rfl (hstake side _ _)
  | @fixed p _ entry =>
    by_cases hp : p.receiver = receiver
    · subst hp
      exact hb.pay entry
    · have hother : (Task.paying p p.transfers none).pays receiver = false := decide_eq_false hp
      refine hb.carry hevolves (fun g hg hstatus => ?_) (filter_exchange rfl hother) fun _ => rfl
      rcases entry.referral_confirmed hg hstatus with hold | ⟨p', hp', hreceiver⟩
      · exact hold
      · cases hp'
        exact absurd hreceiver hp
  | @tried p t due accepted refused failure failure' sent =>
    by_cases hp : p.receiver = receiver
    · exact hb.try_next hp sent
    · have hother : ∀ due failure, (Task.paying p due failure).pays receiver = false :=
        fun _ _ => decide_eq_false hp
      refine hb.carry (.refl _) (fun _ hf _ => hf) (filter_exchange (hother _ _) (hother _ _)) ?_
      intro side
      refine Books.attempts_of_other rfl rfl fun t' ht' hmemo => ?_
      -- the transfer of another payout has the memo of another referral
      obtain ⟨side', rfl⟩ := Payout.eq_transfer (htask t List.mem_cons_self)
      rw [sent.append_eq_owed] at ht'
      exact hp (Side.memo_inj.1 ((Side.memo_of_mem_owed ht').symm.trans hmemo)).2

end Tasks

/-- **Every move keeps the account of every referral.** -/
theorem Stir.accounted {settings : Settings} {now : Timestamp} {b b' : Books}
    {ts ts' : List Task} {m : Move} {receiver : Owner} (h : Stir settings now b ts m b' ts')
    (hfaithful : ∀ task ∈ ts, task.Faithful b.contents) (hb : b.Accounted ts receiver) :
    b'.Accounted ts' receiver := by
  have hevolves := h.evolves
  cases h with
  | rested => exact hb
  | entered step whole =>
    refine hb.carry hevolves (fun f hf hstatus => ?_) rfl fun side => step.attempts_eq whole side _
    rcases step.referral_confirmed hf hstatus with hold | ⟨p, rfl, -⟩
    · exact hold
    · exact whole.elim
  | began fresh =>
    refine hb.carry (.refl _) (fun _ hf _ => hf) ?_ fun _ => rfl
    simp [List.filter_append, fresh.pays]
  | turned turn => exact turn.accounted (hfaithful _ (by simp)) hb
  | woken _ =>
    refine hb.carry (.refl _) (fun _ hf _ => hf) ?_ fun _ => rfl
    simp [List.filter_append, Task.pays]
  | surrounded _ => exact hb.carry (.refl _) (fun _ hf _ => hf) rfl fun _ => rfl

end Onboarding
