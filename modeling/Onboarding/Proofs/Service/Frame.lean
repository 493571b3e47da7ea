import Onboarding.Proofs.Service.Recognition
import Onboarding.Proofs.Store.Listing
/-!
# Frames — what no call on the service takes away

What holds of a store and is taken away by no write of a record is taken away by no call on
the service either, nor by a payout in the background, whatever fails and whoever is
refused (`World.holds_act`). Every step of a call is a read, a write, a transaction, a
transfer or a mail, and a call preserves what its steps preserve.

A call to register refuses an email for its domain before anything else, and none of its
later steps fails in that way: `Framed` says both of the body of a transaction.
-/

namespace Onboarding

open Onboarding.Computation (Ensures Preserves)

variable {σ α : Type} {I : σ → Prop}

/-! ## Steps of transactions -/

namespace TransactionM

/-- A body that leaves `I` with the store, and does not fail over the domain of an email. -/
abbrev Framed (I : σ → Prop) (body : TransactionM σ α) : Prop :=
  Ensures (fun p : σ × Randomness => I p.1) (· ≠ ServiceError.fraudDomain) body

theorem framed_read (f : σ → Except StoreError α) : Framed I (read f) := by
  intro p hp
  unfold read Body.read
  split
  · exact ⟨hp, nofun⟩
  · exact ⟨hp, fun e he => Except.error.inj he ▸ nofun⟩

theorem framed_find (f : σ → Except StoreError α) : Framed I (find f) := framed_read _

theorem framed_write {op : StoreM σ Unit} (h : Preserves I op) : Framed I (write op) := by
  intro p hp
  have hop := h.snd hp
  unfold write Body.write
  split <;> rename_i hout <;> rw [hout] at hop
  · exact ⟨hop, nofun⟩
  · exact ⟨hop, fun e he => Except.error.inj he ▸ nofun⟩

theorem framed_drawCode (f : Randomness → Except RandomFault String × Randomness) :
    Framed I (drawCode f : TransactionM σ String) := by
  intro p hp
  unfold drawCode Body.companion
  dsimp only
  split
  · exact ⟨hp, nofun⟩
  · exact ⟨hp, fun e he => Except.error.inj he ▸ nofun⟩

end TransactionM

open TransactionM

/-! ## Steps of calls -/

/-- `I` holds of the store of a world, and nobody lies in wait for the next transfer. -/
structure World.Holds (I : σ → Prop) (w : World σ) : Prop where
  store : I w.store
  quiet : w.interruption = none

namespace ServiceM

theorem preserves_now : Preserves (World.Holds I) (now : ServiceM σ Timestamp) :=
  .of_snd fun _ hw => hw

theorem preserves_read (f : σ → Except StoreError α) : Preserves (World.Holds I) (read f) := by
  refine .of_snd fun w hw => ?_
  unfold read
  split <;> exact hw

theorem preserves_find (f : σ → Except StoreError α) : Preserves (World.Holds I) (find f) :=
  preserves_read _

theorem preserves_write {op : StoreM σ Unit} (h : Preserves I op) :
    Preserves (World.Holds I) (write op) :=
  .of_snd fun _ hw => ⟨Store.alone_keeps hw.store (h.snd hw.store), hw.quiet⟩

theorem preserves_tryTransaction [Store σ] {body : TransactionM σ α} (h : Framed I body) :
    Preserves (World.Holds I) (tryTransaction body) := by
  refine .of_snd fun w hw => ⟨Store.transaction_keeps hw.store ?_, hw.quiet⟩
  exact h.snd (s := (w.store, w.random)) hw.store

theorem preserves_transaction [Store σ] {body : TransactionM σ α} (h : Framed I body) :
    Preserves (World.Holds I) (transaction body) :=
  .bind (preserves_tryTransaction h) fun _ => .of_snd fun _ hw => hw

/-- A transfer is nobody's chance to change the store. -/
theorem holds_pay {w : World σ} (hw : w.Holds I) (t : Transfer) : (w.pay t).2.Holds I := by
  unfold World.pay
  split
  · exact ⟨hw.store, hw.quiet⟩
  · rw [hw.quiet]
    exact ⟨hw.store, rfl⟩

theorem preserves_pay (t : Transfer) : Preserves (World.Holds I) (pay t) := by
  refine .of_snd fun w hw => ?_
  have hpaid := holds_pay hw t
  unfold pay
  split <;> rename_i hout <;> rwa [hout] at hpaid

theorem preserves_mail (m : Mail) : Preserves (World.Holds I) (mail m : ServiceM σ Unit) :=
  .of_snd fun _ hw => ⟨hw.store, hw.quiet⟩

theorem preserves_later (receiver : Owner) :
    Preserves (World.Holds I) (later receiver : ServiceM σ Unit) :=
  .of_snd fun _ hw => ⟨hw.store, hw.quiet⟩

end ServiceM

open ServiceM

variable [Store σ]

/-! ## Transactions -/

section Transactions

variable (h : Store.RecordStable I)

include h

theorem Enrollment.framed_attach (receiver : Owner) (code : String) (now : Timestamp) :
    Framed I (attach receiver code now) := by
  refine .bind (framed_find _) fun sender? => ?_
  split
  · exact .throw nofun
  split
  · exact .throw nofun
  refine .tryCatch (framed_write (h.createReferral _ _ _)) fun e he => ?_
  split
  · exact .throw nofun
  · exact .throw he

omit h in
theorem Enrollment.framed_freeCode (n : Nat) : Framed I (freeCode n) := by
  induction n with
  | zero => exact .throw nofun
  | succ n ih =>
    refine .bind (framed_drawCode _) fun code => .bind (framed_find _) fun holder? => ?_
    split
    · exact .pure _
    · exact ih

theorem Enrollment.framed_renew (r : Registration) (code? : Option String) (now : Timestamp) :
    Framed I (renew r code? now) := by
  unfold renew
  extract_lets store
  have hstore (referralCode : Option String) : Framed I (store referralCode) :=
    .bind (framed_write (h.putRegistration _)) fun _ => .pure _
  split
  · exact hstore _
  · split
    · exact hstore _
    · exact .bind (.throw nofun) hstore
  · exact .bind (framed_attach h _ _ _) fun _ => hstore _

theorem Enrollment.framed_create (owner : Owner) (email : String) (address : WalletAddress)
    (code? : Option String) (now : Timestamp) :
    Framed I (create owner email address code? now) := by
  refine .bind (framed_find _) fun holder? => ?_
  extract_lets store
  have hstore (u : Unit) : Framed I (store u) := by
    refine .bind (framed_drawCode _) fun code => .bind (framed_freeCode _) fun _ => ?_
    refine .bind (framed_write (h.putRegistration _)) fun _ => ?_
    split
    · exact .bind (framed_attach h _ _ _) fun _ => .pure _
    · exact .pure _
  split
  · split
    · exact .bind (.throw nofun) hstore
    · exact hstore ()
  · exact hstore ()

theorem Enrollment.framed_enroll (settings : Settings) (owner : Owner) (email : String)
    (address : WalletAddress) (code? : Option String) (now : Timestamp) :
    Framed I (enroll settings owner email address code? now) := by
  refine .bind (framed_find _) fun r? => ?_
  split
  · split
    · exact .throw nofun
    · split
      · exact .throw nofun
      · exact framed_renew h _ _ _
  · exact framed_create h _ _ _ _ _

theorem Enrollment.framed_trackIn (receiver : Owner) (code : String) (now : Timestamp) :
    Framed I (trackIn receiver code now) := by
  refine .bind (framed_find _) fun r? => ?_
  split
  · exact .throw nofun
  · split
    · exact .throw nofun
    · exact .bind (framed_attach h _ _ _) fun _ => framed_write (h.putRegistration _)

theorem Faucet.framed_grantIn (owner : Owner) (address : WalletAddress) (now : Timestamp) :
    Framed I (grantIn owner address now) :=
  .bind (framed_drawCode _) fun _ => .bind (Enrollment.framed_freeCode _) fun _ =>
    framed_write (h.createConfirmed _)

theorem Payout.framed_plan (settings : Settings) (receiver : Owner) (now : Timestamp) :
    Framed I (plan settings receiver now) := by
  refine .bind (framed_find _) fun referral? => ?_
  split
  · exact .pure _
  split
  · exact .pure _
  refine .bind (framed_read _) fun receiving => ?_
  split
  · exact .pure _
  refine .bind (framed_read _) fun sending => .bind (framed_read _) fun before => ?_
  exact .bind (framed_write (h.confirmReferral _ _ _ _)) fun _ => .pure _

end Transactions

/-! ## Calls -/

omit [Store σ] in
theorem Enrollment.preserves_checkAddress (settings : Settings) (address : WalletAddress) :
    Preserves (World.Holds I) (checkAddress settings address : ServiceM σ Unit) := by
  unfold checkAddress
  split
  · exact .pure _
  · exact .throw trivial

section Calls

variable (h : Store.RecordStable I)

include h

theorem preserves_register (settings : Settings) (email : String) (address : WalletAddress)
    (code? : Option String) :
    Preserves (World.Holds I) (register settings email address code?) := by
  refine .bind (Enrollment.preserves_checkAddress _ _) fun _ => .bind (preserves_read _) fun _ => ?_
  split
  · exact .throw trivial
  · exact .bind preserves_now fun _ =>
      .bind (preserves_transaction (Enrollment.framed_enroll h _ _ _ _ _ _)) fun _ =>
        .bind (preserves_mail _) fun _ => .pure _

theorem preserves_trackReferral (receiver : Owner) (code : String) :
    Preserves (World.Holds I) (trackReferral receiver code) :=
  .bind preserves_now fun _ => preserves_transaction (Enrollment.framed_trackIn h _ _ _)

theorem preserves_confirm (settings : Settings) (owner : Owner) (code : String) :
    Preserves (World.Holds I) (confirm settings owner code) := by
  have hcheck : Preserves (World.Holds I) (Confirmation.check owner code) := by
    refine .bind (preserves_find _) fun r? => ?_
    split
    · exact .throw trivial
    · split
      · exact .throw trivial
      · split
        · exact .throw trivial
        · exact .pure _
  have hrecord : Preserves (World.Holds I) (Confirmation.record owner) := by
    refine .bind preserves_now fun now => ?_
    refine .bind (preserves_write (h.confirmRegistration _ _)) fun result => ?_
    split
    · exact .pure _
    · exact .throw trivial
    · exact .throw trivial
  exact .bind hcheck fun r => .bind (preserves_pay _) fun _ => .bind hrecord fun _ =>
    .bind (preserves_mail _) fun _ => preserves_later _

theorem preserves_markInstalled (receiver : Owner) :
    Preserves (World.Holds I) (markInstalled receiver) := by
  have hrecord : Preserves (World.Holds I) (Installation.record receiver) := by
    refine .bind preserves_now fun now => ?_
    refine .bind (preserves_write (h.installReferral _ _)) fun result => ?_
    split
    · exact .pure _
    all_goals exact .throw trivial
  refine .bind hrecord fun _ => .bind (preserves_find _) fun r? => ?_
  split
  · split
    · exact preserves_later _
    · exact .pure _
  · exact .pure _

theorem preserves_advanceReferral (settings : Settings) (receiver : Owner) :
    Preserves (World.Holds I) (advanceReferral settings receiver) := by
  have htry (t : Transfer) : Preserves (World.Holds I) (Payout.tryPay t) := by
    refine .of_snd fun w hw => ?_
    have hpaid := holds_pay hw t
    unfold Payout.tryPay
    split
    · exact hw
    · split <;> rename_i hout <;> rwa [hout] at hpaid
  have hpay (ts : List Transfer) (failure : Option ChainError) :
      Preserves (World.Holds I) (Payout.payAll ts failure) := by
    induction ts generalizing failure with
    | nil => cases failure with
      | none => exact .pure _
      | some e => exact .throw trivial
    | cons t ts ih => exact .bind (htry t) fun _ => ih _
  refine .bind preserves_now fun now => ?_
  refine .bind (preserves_transaction (Payout.framed_plan h _ _ _)) fun payout? => ?_
  split
  · exact .pure _
  · exact .bind (hpay _ _) fun _ => .pure _

theorem preserves_grantTestnetStake (settings : Settings) (address : WalletAddress) :
    Preserves (World.Holds I) (grantTestnetStake settings address) := by
  have hnone (f : σ → Except StoreError Registration) :
      Preserves (World.Holds I) (Faucet.expectNone f) := by
    refine .bind (preserves_find _) fun r? => ?_
    split
    · exact .throw trivial
    · exact .pure _
  unfold grantTestnetStake
  split
  · exact .throw trivial
  refine .bind (Enrollment.preserves_checkAddress _ _) fun _ => .bind (hnone _) fun _ =>
    .bind (hnone _) fun _ => .bind (preserves_pay _) fun _ => .bind preserves_now fun now => ?_
  refine .bind (preserves_tryTransaction (Faucet.framed_grantIn h _ _ _)) fun result => ?_
  split
  · exact .pure _
  all_goals exact .throw trivial

theorem Call.holds_after (settings : Settings) (c : Call) {w : World σ} (hw : w.Holds I) :
    (c.after settings w).Holds I := by
  have hlook {w' : World σ} (h : w' = w) : w'.Holds I := h ▸ hw
  cases c with
  | register email address code? => exact (preserves_register h settings _ _ _).snd hw
  | trackReferral receiver code => exact (preserves_trackReferral h receiver code).snd hw
  | confirm owner code => exact (preserves_confirm h settings owner code).snd hw
  | markInstalled receiver => exact (preserves_markInstalled h receiver).snd hw
  | advanceReferral receiver => exact (preserves_advanceReferral h settings receiver).snd hw
  | grantTestnetStake address => exact (preserves_grantTestnetStake h settings address).snd hw
  | registrationStats => exact hlook (registrationStats_snd w)
  | senderStats sender => exact hlook (senderStats_snd sender w)
  | staleReferrals days => exact hlook (staleReferrals_snd days w)
  | pingChain => exact hlook (pingChain_snd w)

/-- **What no write of a record takes away no act does**, if the failures of the surroundings do
not. -/
theorem World.holds_act [StoreView σ] (hfail : ∀ ops s, I s → I (StoreView.failOn ops s))
    (settings : Settings) (a : Act) {w : World σ} (hw : w.Holds I) :
    (w.act settings a).Holds I := by
  cases a with
  | call c => exact c.holds_after h settings hw
  | background place =>
    show (w.background settings place).Holds I
    unfold World.background
    split
    · refine (preserves_advanceReferral h settings _).snd ?_
      exact ⟨hw.store, hw.quiet⟩
    · exact hw
  | surround e => exact ⟨hfail _ _ hw.store, hw.quiet⟩

end Calls

/-! ## Refusing for a domain -/

/-- No transaction fails over the domain of an email. -/
theorem ServiceM.transaction_ne_fraudDomain {body : TransactionM σ α}
    (h : Framed (fun _ => True) body) (w : World σ) :
    (transaction body w).1 ≠ .error .fraudDomain := by
  have hbody := (h (w.store, w.random) trivial).2
  show (Store.transaction .store body (w.store, w.random)).1 ≠ _
  unfold Store.transaction
  split
  · nofun
  · split <;> rename_i hout
    · nofun
    · rw [hout] at hbody
      exact fun he => hbody _ rfl (Except.error.inj he)

/-- An email that the denylist refuses is refused before anything else is done. -/
theorem register_of_isFraudEmail {settings : Settings} {w : World σ} {email : String}
    {address : WalletAddress} (code? : Option String)
    (haddress : Bech32.validate address.text settings.addressPrefix = .ok ())
    (h : Store.isFraudEmail w.store email = .ok true) :
    register settings email address code? w = (.error .fraudDomain, w) := by
  unfold register
  rw [Computation.bind_of_ok (Enrollment.checkAddress_of_valid haddress),
    Computation.bind_of_ok (ServiceM.read_of_ok (f := (Store.isFraudEmail · email)) h)]
  rfl

/-- **An email is refused for its domain** only if the denylist says so. -/
theorem isFraudEmail_of_register {settings : Settings} {w : World σ} {email : String}
    {address : WalletAddress} {code? : Option String}
    (haddress : Bech32.validate address.text settings.addressPrefix = .ok ())
    (h : (register settings email address code? w).1 = .error .fraudDomain) :
    Store.isFraudEmail w.store email = .ok true := by
  unfold register at h
  rw [Computation.bind_of_ok (Enrollment.checkAddress_of_valid haddress)] at h
  rcases ServiceM.read_cases (Store.isFraudEmail · email) w with
    ⟨refused, hanswer, hread⟩ | ⟨e, -, hread⟩
  · rw [Computation.bind_of_ok hread] at h
    cases refused with
    | true => exact hanswer
    | false =>
      refine absurd h (Computation.bind_ne_error nofun fun now w => ?_)
      refine Computation.bind_ne_error ?_ fun _ _ => nofun
      exact transaction_ne_fraudDomain (Enrollment.framed_enroll .true _ _ _ _ _ _) w
  · rw [Computation.bind_of_error hread] at h
    cases h

end Onboarding
