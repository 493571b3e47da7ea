import Onboarding.Proofs.Service.World
/-!
# Payouts — a referral that is ready is paid, and once

`Contents.Payable` is what the transaction of a payout looks for. The transaction fixes
the rewards of a payable referral and of no other (`plan_ok`), and where both parties
are registered nothing but a failing store keeps it from doing so (`plan_total`). The
transfers come afterwards, one by one (`payAll_cases`).
-/

namespace Onboarding

open StoreView

/-- The referral of a receiver is installed and the receiver is confirmed. -/
def Contents.Payable (c : Contents) (receiver : Owner) : Prop :=
  ∃ f r, c.referral receiver = some f ∧ f.status = .installed ∧
    c.registration receiver = some r ∧ r.isConfirmed = true

/-- The parties of every referral are registered. -/
def Contents.Linked (c : Contents) : Prop :=
  ∀ receiver f, c.referral receiver = some f → (∃ r, c.registration receiver = some r) ∧
    ∃ q, c.registration f.sender = some q

namespace Payout

section Plan

variable {σ : Type} [Store σ] [LawfulStore σ] {s s' : σ} {g g' : Randomness}
  {settings : Settings} {receiver : Owner} {now : Timestamp}

/-- The confirmed referrals of a sender are counted. -/
theorem confirmedCount_of_ok (hs : Sound s) {sender : Owner} {n : Nat} (hsender : sender.IsHash)
    (h : Store.confirmedReferralCount s sender = .ok n) :
    (contents s).ConfirmedCount sender n := by
  have hlisting := LawfulStore.referralsBySender hs hsender
  unfold Store.confirmedReferralCount at h
  cases hx : Store.referralsBySender s sender with
  | error e => rw [hx] at h; cases h
  | ok fs =>
    rw [hx] at h hlisting
    cases h
    cases hlisting with
    | listed nodup mem => exact ⟨fs, nodup, mem, rfl⟩

/-- The store has fixed a payout to a receiver: whatever becomes of its transfers, they
enter the books with it. -/
def Fixes (settings : Settings) (receiver : Owner) (now : Timestamp) (s s' : σ) (p : Payout) :
    Prop :=
  p.receiver = receiver ∧ ∃ c, Becomes s c s' ∧
    ∀ (b : Books) (accepted refused : List Transfer), b.contents = contents s →
      Sent p.transfers accepted refused → Step settings now b (.paid p) { b with
        contents := c
        transfers := b.transfers ++ accepted
        refusals := b.refusals ++ refused }

/-- The write at the end of the transaction fixes what was read before it. -/
theorem fixes_of_confirmReferral (hs : Sound s) {f : Referral} {receiving sending : Registration}
    {n : Nat} (hf : (contents s).referral receiver = some f) (hinstalled : f.status = .installed)
    (hreceiver : (contents s).registration receiver = some receiving)
    (hready : receiving.isConfirmed = true)
    (hsender : (contents s).registration f.sender = some sending)
    (hearlier : (contents s).ConfirmedCount f.sender n)
    (h : Store.confirmReferral receiver (settings.referral.senderReward n)
      settings.referral.receiverReward now s = (.ok (), s')) :
    Fixes settings receiver now s s' ⟨f.sender, sending.address, settings.referral.senderReward n,
      receiver, receiving.address, settings.referral.receiverReward⟩ := by
  obtain ⟨hmoved, hbecomes⟩ := (LawfulStore.confirmReferral receiver _ _ now hs).of_eq_ok h
  obtain ⟨f₁, f', hf₁, hconfirm, hcontents⟩ := Contents.moveReferral_eq_ok.1 hmoved.symm
  rw [hf] at hf₁
  cases hf₁
  obtain ⟨-, rfl⟩ := Referral.confirm_eq_ok.1 hconfirm
  rw [hcontents] at hbecomes
  have howner := (LawfulStore.coherent hs).receiver_eq hf
  subst howner
  refine ⟨rfl, _, hbecomes, fun b accepted refused hb hsent => ?_⟩
  rw [← hb] at hf hreceiver hsender hearlier ⊢
  exact .paid hf hinstalled hreceiver hready hsender hearlier rfl hsent

/-- **The transaction of a payout** fixes the rewards of a referral that is ready, and
finds nothing to pay otherwise. -/
theorem plan_ok (hs : Sound s) {payout? : Option Payout}
    (h : plan settings receiver now (s, g) = (.ok payout?, (s', g'))) :
    (payout? = none ∧ s' = s ∧ ¬ (contents s).Payable receiver) ∨
      ∃ p, payout? = some p ∧ Fixes settings receiver now s s' p := by
  have hc := LawfulStore.coherent hs
  obtain ⟨found, ⟨s₀, g₀⟩, hfind, h₀⟩ := Computation.bind_eq_ok h
  obtain ⟨hfound, rfl, rfl⟩ := TransactionM.find_eq_ok hfind
  have hsearch := LawfulStore.referral receiver hs
  cases found with
  | none =>
    cases h₀
    refine .inl ⟨rfl, rfl, ?_⟩
    rintro ⟨f, r, hf, -⟩
    exact hsearch.of_missing hfound f hf
  | some f =>
    have hf := hsearch.of_found (found?_eq_some hfound)
    dsimp only at h₀
    split at h₀
    · -- the referral is in another state
      rename_i hstatus
      cases h₀
      refine .inl ⟨rfl, rfl, ?_⟩
      rintro ⟨f', r, hf', hinstalled, -⟩
      rw [hf] at hf'
      cases hf'
      exact hstatus hinstalled
    rename_i hstatus
    obtain ⟨receiving, ⟨s₁, g₁⟩, hread, h₁⟩ := Computation.bind_eq_ok h₀
    obtain ⟨hreceiving, rfl, rfl⟩ := TransactionM.read_eq_ok hread
    have hreceiver := (LawfulStore.registration receiver hs).of_found hreceiving
    split at h₁
    · -- the receiver is not confirmed
      rename_i hunconfirmed
      cases h₁
      refine .inl ⟨rfl, rfl, ?_⟩
      rintro ⟨f', r, -, -, hr, hready⟩
      rw [hreceiver] at hr
      cases hr
      rw [hready] at hunconfirmed
      cases hunconfirmed
    rename_i hready
    -- the referral is ready: what is read of the sender fixes the rewards
    obtain ⟨sending, ⟨s₂, g₂⟩, hread, h₂⟩ := Computation.bind_eq_ok h₁
    obtain ⟨hsending, rfl, rfl⟩ := TransactionM.read_eq_ok hread
    have hsender := (LawfulStore.registration f.sender hs).of_found hsending
    obtain ⟨n, ⟨s₃, g₃⟩, hread, h₃⟩ := Computation.bind_eq_ok h₂
    obtain ⟨hcount, rfl, rfl⟩ := TransactionM.read_eq_ok hread
    have hearlier := confirmedCount_of_ok hs (hc.parties hf).sender hcount
    obtain ⟨_, ⟨s₄, g₄⟩, hwrite, hpure⟩ := Computation.bind_eq_ok h₃
    cases hpure
    obtain ⟨hmove, rfl⟩ := TransactionM.write_eq_ok hwrite
    exact .inr ⟨_, rfl, fixes_of_confirmReferral hs hf (not_not.1 hstatus) hreceiver
      (by simpa using hready) hsender hearlier hmove⟩

/-- Where both parties are registered, only a failing store keeps the transaction of a
payout from succeeding. -/
theorem plan_total (hs : Sound s) (hsafe : failing s = []) (hlinked : (contents s).Linked)
    (hpayable : (contents s).Payable receiver) :
    ∃ payout? p, plan settings receiver now (s, g) = (.ok payout?, p) := by
  obtain ⟨f, receiving, hf, hinstalled, hreceiving, hready⟩ := hpayable
  obtain ⟨-, sending, hsending⟩ := hlinked receiver f hf
  have hsender : f.sender.IsHash := (LawfulStore.coherent hs).isHash hsending
  obtain ⟨n, hcount⟩ := LawfulStore.confirmedReferralCount_eq_ok hs hsafe hsender
  obtain ⟨s', hmove⟩ := LawfulStore.confirmReferral_eq_ok hs (by simp [hsafe]) hf hinstalled
    (settings.referral.senderReward n) settings.referral.receiverReward now
  -- the steps of the transaction, each of which succeeds
  have hfind : TransactionM.find (Store.referral · receiver) (s, g) = (.ok (some f), (s, g)) :=
    TransactionM.find_of_ok (LawfulStore.referral_eq_ok hs hsafe hf)
  have hread : ∀ {o r}, (contents s).registration o = some r →
      TransactionM.read (Store.registration · o) (s, g) = (.ok r, (s, g)) := fun hr =>
    TransactionM.read_of_ok (LawfulStore.registration_eq_ok hs hsafe hr)
  have hcounted : TransactionM.read (Store.confirmedReferralCount · f.sender) (s, g) =
      (.ok n, (s, g)) :=
    TransactionM.read_of_ok hcount
  unfold plan
  rw [Computation.bind_of_ok hfind]
  dsimp only
  rw [if_neg (not_not.2 hinstalled), Computation.bind_of_ok (hread hreceiving),
    if_neg (by simp [hready]), Computation.bind_of_ok (hread hsending),
    Computation.bind_of_ok hcounted, Computation.bind_of_ok (TransactionM.write_of_ok hmove)]
  exact ⟨_, _, rfl⟩

end Plan

/-! ## The transfers -/

section Transfers

variable {σ : Type} {w : World σ}

theorem tryPay_cases (t : Transfer) (hw : w.interruption = none) :
    ∃ e l accepted refused, tryPay t w = (.ok e, { w with ledger := l }) ∧
      l.transfers = w.ledger.transfers ++ accepted ∧ l.refusals = w.ledger.refusals ++ refused ∧
      ∀ {due accepted' refused'}, Sent due accepted' refused' →
        Sent (t :: due) (accepted ++ accepted') (refused ++ refused') := by
  unfold tryPay
  cases hzero : t.amount.isZero with
  | true =>
    refine ⟨none, w.ledger, [], [], rfl, ?_, ?_, .skipped hzero⟩
    · exact (List.append_nil _).symm
    · exact (List.append_nil _).symm
  | false =>
    simp only [Bool.false_eq_true, if_false]
    have hpay := ServiceM.pay_cases t hw
    unfold ServiceM.pay at hpay
    rcases hout : w.pay t with ⟨result, w'⟩
    rw [hout] at hpay
    rcases hpay with ⟨l, hl, htransfers, hrefusals⟩ | ⟨e, l, he, hl, htransfers, hrefusals⟩
    · cases result with
      | error e => cases hl
      | ok u =>
        cases hl
        refine ⟨none, l, [t], [], rfl, htransfers, ?_, .accepted hzero⟩
        rw [hrefusals, List.append_nil]
    · cases result with
      | ok u => cases hl
      | error e' =>
        cases hl
        refine ⟨some e, l, [], [t], ?_, ?_, hrefusals, .refused hzero⟩
        · cases e <;> first | rfl | exact absurd rfl he
        · rw [htransfers, List.append_nil]

/-- Every transfer is tried, whatever became of those before it. -/
theorem payAll_cases (due : List Transfer) (failure : Option ChainError)
    (hw : w.interruption = none) :
    ∃ l accepted refused, (payAll due failure w).2 = { w with ledger := l } ∧
      l.transfers = w.ledger.transfers ++ accepted ∧ l.refusals = w.ledger.refusals ++ refused ∧
      Sent due accepted refused := by
  induction due generalizing failure w with
  | nil =>
    refine ⟨w.ledger, [], [], ?_, (List.append_nil _).symm, (List.append_nil _).symm, .nil⟩
    cases failure <;> rfl
  | cons t rest ih =>
    obtain ⟨e, l, accepted, refused, hpay, htransfers, hrefusals, hsent⟩ := tryPay_cases t hw
    obtain ⟨l', accepted', refused', hrest, htransfers', hrefusals', hsent'⟩ :=
      ih (failure.or e) (w := { w with ledger := l }) hw
    refine ⟨l', accepted ++ accepted', refused ++ refused', ?_, ?_, ?_, hsent hsent'⟩
    · rw [payAll, Computation.bind_of_ok hpay]
      exact hrest
    · rw [htransfers', htransfers, List.append_assoc]
    · rw [hrefusals', hrefusals, List.append_assoc]

end Transfers

end Payout

/-! ## The calls -/

section Calls

variable {σ : Type} [Store σ] [LawfulStore σ] {settings : Settings} {w : World σ}

/-- **The transaction of a payout, as a call makes it**: it fixes what is ready and changes
nothing otherwise, and with a store that does not fail it leaves nothing to pay. -/
theorem Payout.transaction_cases (settings : Settings) (hw : w.Good) (receiver : Owner) :
    (∃ p s g, Fixes settings receiver w.clock w.store s p ∧
        ServiceM.transaction (plan settings receiver w.clock) w =
          (.ok (some p), { w with store := s, random := g })) ∨
      ∃ answer g, (answer = .ok none ∨ ∃ e, answer = .error e) ∧
        (failing w.store = [] → (contents w.store).Linked →
          ¬ (contents w.store).Payable receiver) ∧
        ServiceM.transaction (plan settings receiver w.clock) w =
          (answer, { w with random := g }) := by
  rcases ServiceM.transaction_cases (plan settings receiver w.clock) w with
    ⟨payout?, s, g, hbody, htransaction⟩ | ⟨e, g, hnever, htransaction⟩
  · rcases plan_ok hw.sound hbody with ⟨rfl, rfl, hunpayable⟩ | ⟨p, rfl, hfixes⟩
    · exact .inr ⟨_, g, .inl rfl, fun _ _ => hunpayable, htransaction⟩
    · exact .inl ⟨p, s, g, hfixes, htransaction⟩
  · -- the transaction failed, and so the store did or there was nothing to pay
    refine .inr ⟨_, g, .inr ⟨e, rfl⟩, fun hsafe hlinked hpayable => ?_, htransaction⟩
    obtain ⟨payout?, p, hplan⟩ :
        ∃ payout? p, plan settings receiver w.clock (w.store, w.random) = (.ok payout?, p) :=
      plan_total hw.sound hsafe hlinked hpayable
    refine hnever payout? p (Store.transaction_of_ok ?_ hplan)
    rw [hsafe]
    exact List.not_mem_nil

/-- **An advance pays the referral or changes nothing**, and with a store that does not
fail it leaves nothing to pay. -/
theorem advanceReferral_made (settings : Settings) (hw : w.Good) (receiver : Owner) :
    (∃ p, p.receiver = receiver ∧
        Made settings w (advanceReferral settings receiver w).2 (.paid p)) ∨
      Made settings w (advanceReferral settings receiver w).2 .nothing ∧
        (failing w.store = [] → (contents w.store).Linked →
          ¬ (contents w.store).Payable receiver) := by
  unfold advanceReferral
  rw [Computation.bind_of_ok (ServiceM.now_apply w)]
  rcases Payout.transaction_cases settings hw receiver with
    ⟨p, s, g, ⟨hreceiver, c, hbecomes, hstep⟩, htransaction⟩ |
      ⟨answer, g, hanswer, hunpayable, htransaction⟩
  · rw [Computation.bind_of_ok htransaction]
    obtain ⟨l, accepted, refused, hpaid, htransfers, hrefusals, hsent⟩ :=
      Payout.payAll_cases p.transfers none (w := { w with store := s, random := g }) hw.quiet
    refine .inl ⟨p, hreceiver, ?_⟩
    dsimp only
    rw [Computation.bind_pure_snd, hpaid]
    refine .of_becomes hw hbecomes ?_
    rw [htransfers, hrefusals]
    exact hstep w.books accepted refused rfl hsent
  · refine .inr ⟨?_, hunpayable⟩
    rcases hanswer with rfl | ⟨e, rfl⟩
    · rw [Computation.bind_of_ok htransaction]
      exact .nothing hw g
    · rw [Computation.bind_of_error htransaction]
      exact .nothing hw g

namespace Installation

/-- The installation of a receiver's referral is stored. With a store that does not fail it
is, unless there is none at its start. -/
theorem record_cases (hw : w.Good) (receiver : Owner) :
    (∃ f s, (contents w.store).Refers f ∧ f.receiver = receiver ∧ f.status = .registered ∧
        Becomes w.store ((contents w.store).refer
          { f with status := .installed, installedAt := some w.clock }) s ∧
        record receiver w = (.ok (), { w with store := s })) ∨
      ∃ e, (failing w.store = [] → ∀ f, (contents w.store).referral receiver = some f →
          f.status ≠ .registered) ∧
        record receiver w = (.error e, w) := by
  have hc := LawfulStore.coherent hw.sound
  have hwritten := LawfulStore.installReferral receiver w.clock hw.sound
  unfold record
  rw [Computation.bind_of_ok (ServiceM.now_apply w)]
  rcases hout : Store.installReferral receiver w.clock w.store with ⟨result, s⟩
  cases result with
  | ok u =>
    obtain ⟨hmoved, hbecomes⟩ := hwritten.of_eq_ok hout
    obtain ⟨f, f', hf, hinstall, hcontents⟩ := Contents.moveReferral_eq_ok.1 hmoved.symm
    obtain ⟨hstart, rfl⟩ := Referral.install_eq_ok.1 hinstall
    rw [hcontents] at hbecomes
    exact .inl ⟨f, s, hc.refers hf, hc.receiver_eq hf, hstart, hbecomes,
      Computation.bind_of_ok (ServiceM.write_of_ok hout)⟩
  | error e =>
    have hwrite := ServiceM.write_of_error hout
    rw [Computation.bind_of_ok hwrite]
    -- a referral at its start would have been moved
    have hstart : failing w.store = [] → ∀ f, (contents w.store).referral receiver = some f →
        f.status ≠ .registered := by
      intro hsafe f hf hstart
      obtain ⟨s', hok⟩ := LawfulStore.installReferral_eq_ok hw.sound (by simp [hsafe]) hf
        hstart w.clock
      cases hout.symm.trans hok
    cases e <;> exact .inr ⟨_, hstart, rfl⟩

/-- Who is confirmed is noticed, unless the store is made to fail. -/
theorem notice_cases (hw : w.Good) (receiver : Owner) :
    ∃ waiting, (notice receiver w).2 = { w with pending := w.pending ++ waiting } ∧
      (waiting = [receiver] ∨ waiting = [] ∧ (.getRequest ∈ failing w.store ∨
        ∀ r, (contents w.store).registration receiver = some r → r.confirmedAt = none)) := by
  have hsearch := LawfulStore.registration receiver hw.sound
  have hnobody : w = { w with pending := w.pending ++ [] } := by rw [List.append_nil]
  unfold notice
  rcases ServiceM.find_cases (Store.registration · receiver) w with
    ⟨found, hfound, hfind⟩ | ⟨e, hfound, hfind⟩
  · rw [Computation.bind_of_ok hfind]
    cases found with
    | none =>
      refine ⟨[], hnobody, .inr ⟨rfl, .inr fun r hr => ?_⟩⟩
      exact absurd hr (hsearch.of_missing hfound r)
    | some r =>
      have hr := hsearch.of_found (found?_eq_some hfound)
      dsimp only
      split
      · exact ⟨[receiver], rfl, .inl rfl⟩
      · rename_i hopen
        refine ⟨[], hnobody, .inr ⟨rfl, .inr fun q hq => ?_⟩⟩
        rw [hr] at hq
        cases hq
        simpa [Registration.isConfirmed] using hopen
  · rw [Computation.bind_of_error hfind]
    refine ⟨[], hnobody, .inr ⟨rfl, ?_⟩⟩
    generalize Store.registration w.store receiver = x at hsearch hfound
    cases hsearch with
    | found _ => cases hfound
    | missing _ => cases hfound
    | broken h =>
      -- nobody is registered under an empty key
      refine h.imp_right fun hempty r hr => ?_
      exact absurd hempty ((LawfulStore.coherent hw.sound).isHash hr).text_ne

end Installation

/-- **An installation moves the referral or changes nothing.** -/
theorem markInstalled_made (hw : w.Good) (receiver : Owner) :
    (∃ f, f.receiver = receiver ∧ Made settings w (markInstalled receiver w).2 (.installed f)) ∨
      Made settings w (markInstalled receiver w).2 .nothing := by
  unfold markInstalled
  rcases Installation.record_cases hw receiver with
    ⟨f, s, hf, hreceiver, hstart, hbecomes, hrecord⟩ | ⟨e, -, hrecord⟩
  · subst hreceiver
    rw [Computation.bind_of_ok hrecord]
    have hw₁ : World.Good { w with store := s } := ⟨hbecomes.sound, hw.quiet⟩
    obtain ⟨waiting, hnotice, hwaiting⟩ := Installation.notice_cases hw₁ f.receiver
    rw [hbecomes.failing_eq, hbecomes.contents_eq] at hwaiting
    refine .inl ⟨f, rfl, ?_⟩
    rw [hnotice]
    exact .of_becomes hw hbecomes (.installed hf hstart hwaiting)
  · rw [Computation.bind_of_error hrecord]
    exact .inr (.nothing hw w.random)

end Calls

end Onboarding
