import Onboarding.Proofs.Service.Lockstep.Bodies
import Onboarding.Proofs.Service.Run
import Onboarding.Proofs.Store.Denylist
/-!
# Calls in lockstep — the service on two stores

Each call of the service that a client can reach answers the same in two worlds that are
alike, and leaves them alike; so do the payouts in the background and the surroundings.
The texts that a call is given have to be such as clients give them: an owner is a hash, an
email has no blanks and a code is not empty.
-/

namespace Onboarding

open StoreView

variable {σ τ : Type} [Store σ] [Store τ] [LawfulStore σ] [LawfulStore τ] {v : World σ}
  {w : World τ}

/-! ## Registering -/

/-- An address is looked at without asking the store. -/
theorem Enrollment.checkAddress_matched (h : v.Alike w) {settings : Settings}
    {address : WalletAddress} {β : Type} {k : Unit → ServiceM σ β} {k' : Unit → ServiceM τ β}
    (hrest : KeyTable.IsKey (Utf8.bytes address.text) →
      Matched World.Alike World.Alike (k () v) (k' () w)) :
    Matched World.Alike World.Alike ((checkAddress settings address >>= k) v)
      ((checkAddress settings address >>= k') w) := by
  unfold checkAddress
  cases hvalid : Bech32.validate address.text settings.addressPrefix with
  | error e => exact .error h
  | ok u => exact hrest (isKey_of_validate hvalid)

theorem register_matched (h : v.Alike w) (settings : Settings) {email : String}
    (address : WalletAddress) {code? : Option String}
    (hblanks : ∀ c ∈ email.toList, isBlank c = false) (hemail : byteLength email < UInt64.size)
    (hfits : ∀ c, code? = some c → byteLength c < UInt64.size)
    (hcodes : ∀ code, code? = some code → code ≠ "") :
    Matched World.Alike World.Alike (register settings email address code? v)
      (register settings email address code? w) := by
  unfold register
  refine Enrollment.checkAddress_matched h fun haddress => ?_
  refine ServiceM.read_matched h ?_ fun listed _ => ?_
  · exact h.store.isFraudEmail hblanks
  cases listed with
  | true => exact .error h
  | false =>
    simp only [Bool.false_eq_true, if_false]
    refine ServiceM.now_matched h ?_
    refine (ServiceM.transaction_matched h ?_).bind fun r v' w' _ _ h' => ?_
    · exact Enrollment.enroll_matched h.store settings v.clock hemail haddress hfits hcodes
    exact (ServiceM.mail_matched h' _).bind fun _ _ _ _ _ h'' => .ok h''

theorem trackReferral_matched (h : v.Alike w) {receiver : Owner} {code : String}
    (hreceiver : receiver.IsHash) (hcode : code ≠ "") :
    Matched World.Alike World.Alike (trackReferral receiver code v)
      (trackReferral receiver code w) := by
  unfold trackReferral
  refine ServiceM.now_matched h (ServiceM.transaction_matched h ?_)
  exact Enrollment.trackIn_matched h.store v.clock hreceiver hcode

/-! ## Confirming -/

namespace Confirmation

theorem check_matched (h : v.Alike w) {owner : Owner} (howner : owner.IsHash) (code : String) :
    Matched World.Alike World.Alike (check owner code v) (check owner code w) := by
  unfold check
  refine ServiceM.find_matched h ?_ fun found _ => ?_
  · exact h.store.registration howner.text_ne
  cases found with
  | none => exact .error h
  | some r =>
    dsimp only
    split
    · exact .error h
    split
    · exact .error h
    · exact .ok h

theorem record_matched (h : v.Alike w) {owner : Owner} (howner : owner.IsHash) :
    Matched World.Alike World.Alike (record owner v) (record owner w) := by
  unfold record
  refine ServiceM.now_matched h ?_
  refine (ServiceM.write_matched h ?_).bind fun written v' w' _ _ h' => ?_
  · exact h.store.confirmRegistration howner.text_ne v.clock
  split
  · exact .ok h'
  · exact .error h'
  · exact .error h'

theorem greet_matched (h : v.Alike w) {owner : Owner} (howner : owner.IsHash)
    (r : Registration) :
    Matched World.Alike World.Alike (greet owner r v) (greet owner r w) :=
  (ServiceM.mail_matched h _).bind fun _ _ _ _ _ h' => ServiceM.later_matched h' howner

end Confirmation

theorem confirm_matched (h : v.Alike w) (settings : Settings) {owner : Owner}
    (howner : owner.IsHash) (code : String) :
    Matched World.Alike World.Alike (confirm settings owner code v)
      (confirm settings owner code w) := by
  unfold confirm
  refine (Confirmation.check_matched h howner code).bind fun r _ _ _ _ h₁ => ?_
  have hstake : Matched World.Alike World.Alike (Confirmation.grantStake settings owner r _)
      (Confirmation.grantStake settings owner r _) := ServiceM.pay_matched h₁ _
  refine hstake.bind fun _ _ _ _ _ h₂ => ?_
  refine (Confirmation.record_matched h₂ howner).bind fun _ _ _ _ _ h₃ => ?_
  exact Confirmation.greet_matched h₃ howner r

/-! ## Paying referrals -/

namespace Payout

theorem tryPay_matched (h : v.Alike w) (t : Transfer) :
    Matched World.Alike World.Alike (tryPay t v) (tryPay t w) := by
  have hpay := h.pay_matched t
  unfold tryPay
  split
  · exact .ok h
  generalize v.pay t = out at hpay ⊢
  generalize w.pay t = out' at hpay ⊢
  cases hpay with
  | ok h' => exact .ok h'
  | @error e _ _ h' =>
    cases e with
    | interrupted => exact .error h'
    | _ => exact .ok h'

theorem payAll_matched (h : v.Alike w) (due : List Transfer) (failure : Option ChainError) :
    Matched World.Alike World.Alike (payAll due failure v) (payAll due failure w) := by
  induction due generalizing failure v w with
  | nil =>
    cases failure with
    | none => exact .ok h
    | some e => exact .error h
  | cons t rest ih => exact (tryPay_matched h t).bind fun _ _ _ _ _ h' => ih h' _

end Payout

theorem advanceReferral_matched (h : v.Alike w) (settings : Settings) {receiver : Owner}
    (hreceiver : receiver.IsHash) :
    Matched World.Alike World.Alike (advanceReferral settings receiver v)
      (advanceReferral settings receiver w) := by
  unfold advanceReferral
  refine ServiceM.now_matched h ?_
  refine (ServiceM.transaction_matched h ?_).bind fun payout? v' w' _ _ h' => ?_
  · exact Payout.plan_matched h.store settings v.clock hreceiver
  cases payout? with
  | none => exact .ok h'
  | some p => exact (Payout.payAll_matched h' _ none).bind fun _ _ _ _ _ h'' => .ok h''

namespace Installation

theorem record_matched (h : v.Alike w) {receiver : Owner} (hreceiver : receiver.IsHash) :
    Matched World.Alike World.Alike (record receiver v) (record receiver w) := by
  unfold record
  refine ServiceM.now_matched h ?_
  refine (ServiceM.write_matched h ?_).bind fun written v' w' _ _ h' => ?_
  · exact h.store.installReferral hreceiver.text_ne v.clock
  split
  · exact .ok h'
  · exact .error h'
  · exact .error h'
  · exact .error h'

theorem notice_matched (h : v.Alike w) {receiver : Owner} (hreceiver : receiver.IsHash) :
    Matched World.Alike World.Alike (notice receiver v) (notice receiver w) := by
  unfold notice
  refine ServiceM.find_matched h ?_ fun found _ => ?_
  · exact h.store.registration hreceiver.text_ne
  cases found with
  | none => exact .ok h
  | some r =>
    dsimp only
    split
    · exact ServiceM.later_matched h hreceiver
    · exact .ok h

end Installation

theorem markInstalled_matched (h : v.Alike w) {receiver : Owner} (hreceiver : receiver.IsHash) :
    Matched World.Alike World.Alike (markInstalled receiver v) (markInstalled receiver w) :=
  (Installation.record_matched h hreceiver).bind fun _ _ _ _ _ h' =>
    Installation.notice_matched h' hreceiver

/-! ## Granting -/

namespace Faucet

/-- Both look for a wallet that is bound to somebody and find one, or neither does. -/
theorem expectUnbound_matched (h : v.Alike w) {address : WalletAddress}
    (haddress : KeyTable.IsKey (Utf8.bytes address.text)) {β : Type} {k : Unit → ServiceM σ β}
    {k' : Unit → ServiceM τ β} (hrest : (∀ q, ¬ (contents v.store).Binds address q) →
      Matched World.Alike World.Alike (k () v) (k' () w)) :
    Matched World.Alike World.Alike ((expectNone (Store.byAddress · address) >>= k) v)
      ((expectNone (Store.byAddress · address) >>= k') w) := by
  rcases h.store.byAddress (mt Utf8.bytes_eq_nil.2 haddress.1) with
    ⟨p, q, hp, hq, -, -⟩ | ⟨key, hleft, hright, hunbound⟩
  · have hnone : expectNone (Store.byAddress · address) v = (.error .alreadyExists, v) :=
      expectNone_of_found hp
    have hnone' : expectNone (Store.byAddress · address) w = (.error .alreadyExists, w) :=
      expectNone_of_found hq
    rw [Computation.bind_of_error hnone, Computation.bind_of_error hnone']
    exact .error h
  · have hnone : expectNone (Store.byAddress · address) v = (.ok (), v) :=
      expectNone_of_missing hleft
    have hnone' : expectNone (Store.byAddress · address) w = (.ok (), w) :=
      expectNone_of_missing hright
    rw [Computation.bind_of_ok hnone, Computation.bind_of_ok hnone']
    exact hrest hunbound

theorem expectNew_matched (h : v.Alike w) {owner : Owner} (howner : owner.IsHash) {β : Type}
    {k : Unit → ServiceM σ β} {k' : Unit → ServiceM τ β}
    (hrest : (contents v.store).registration owner = none →
      Matched World.Alike World.Alike (k () v) (k' () w)) :
    Matched World.Alike World.Alike ((expectNone (Store.registration · owner) >>= k) v)
      ((expectNone (Store.registration · owner) >>= k') w) := by
  unfold expectNone
  simp only [bind_assoc]
  refine ServiceM.find_matched h ?_ fun found hfound => ?_
  · exact h.store.registration howner.text_ne
  cases found with
  | some r => exact .error h
  | none =>
    refine hrest (Option.eq_none_iff_forall_ne_some.2 ?_)
    exact (LawfulStore.registration owner h.store.soundLeft).of_missing hfound

end Faucet

theorem grantTestnetStake_matched (h : v.Alike w) (settings : Settings)
    (address : WalletAddress) :
    Matched World.Alike World.Alike (grantTestnetStake settings address v)
      (grantTestnetStake settings address w) := by
  unfold grantTestnetStake
  cases settings.testnetStake with
  | none => exact .error h
  | some stake =>
    dsimp only
    refine Enrollment.checkAddress_matched h fun haddress => ?_
    refine Faucet.expectUnbound_matched h haddress fun hunbound => ?_
    refine Faucet.expectNew_matched h (Owner.isHash_ofAddress _) fun habsent => ?_
    refine (ServiceM.pay_matched h _).bind fun _ v' w' hpaid _ h' => ?_
    -- the transfer left the store as it was
    have hstore : v'.store = v.store := by
      rcases ServiceM.pay_cases _ h.quietLeft with ⟨l, hpay, -, -⟩ | ⟨e, l, -, hpay, -, -⟩ <;>
        cases hpay.symm.trans hpaid
      rfl
    refine ServiceM.now_matched h' ?_
    refine (ServiceM.tryTransaction_matched h' ?_).bind fun granted v'' w'' _ _ h'' => ?_
    · rw [← hstore] at habsent hunbound
      exact Faucet.grantIn_matched h'.store v'.clock haddress habsent hunbound
    split
    · exact .ok h''
    · exact .error h''
    · exact .error h''

/-! ## Reports -/

theorem registrationStats_matched (h : v.Alike w) :
    Matched World.Alike World.Alike (registrationStats v) (registrationStats w) := by
  unfold registrationStats
  refine ServiceM.read_matched h h.store.confirmedTotal fun total _ => ?_
  exact ServiceM.read_matched h h.store.confirmedByDay fun _ _ => .ok h

theorem senderStats_matched (h : v.Alike w) {sender : Owner} (hsender : sender.IsHash) :
    Matched World.Alike World.Alike (senderStats sender v) (senderStats sender w) := by
  unfold senderStats ServiceM.read
  dsimp only
  rw [← h.store.referralStats hsender]
  split
  · exact .ok h
  · exact .error h

/-! ## Between calls -/

namespace World.Alike

/-- A payout in the background keeps two worlds alike. -/
theorem background (h : v.Alike w) (settings : Settings) (place : Nat) :
    (v.background settings place).Alike (w.background settings place) := by
  unfold World.background
  rw [← h.pending_eq]
  split
  · rename_i receiver hwaiting
    have hrest : ∀ o ∈ v.pending.eraseIdx place, o.IsHash := fun o ho =>
      h.waiting o (List.mem_of_mem_eraseIdx ho)
    have h' : World.Alike { v with pending := v.pending.eraseIdx place }
        { w with pending := v.pending.eraseIdx place } :=
      { h with pending_eq := rfl, waiting := hrest }
    exact (advanceReferral_matched h' settings
      (h.waiting receiver (List.mem_of_getElem? hwaiting))).snd
  · exact h

/-- Two worlds stay alike in other surroundings, if these let no store fail. -/
theorem surround [DenyingStore σ] [DenyingStore τ] (h : v.Alike w) {e : Surroundings}
    (he : e.failing = []) : (v.surround e).Alike (w.surround e) where
  store := {
    soundLeft := LawfulStore.sound_failOn _ h.store.soundLeft
    soundRight := LawfulStore.sound_failOn _ h.store.soundRight
    quietLeft := World.failing_surround he v
    quietRight := World.failing_surround he w
    contents_eq := by
      have hcontents := h.store.contents_eq
      rwa [← LawfulStore.contents_failOn e.failing v.store,
        ← LawfulStore.contents_failOn e.failing w.store] at hcontents
    denylist := by
      unfold World.surround
      rw [he, DenyingStore.isFraudDomain_failOn h.store.quietLeft,
        DenyingStore.isFraudDomain_failOn h.store.quietRight]
      exact h.store.denylist }
  random_eq := rfl
  ledger_eq := by
    unfold World.surround
    rw [h.ledger_eq]
  outbox_eq := h.outbox_eq
  clock_eq := rfl
  pending_eq := h.pending_eq
  quietLeft := h.quietLeft
  quietRight := h.quietRight
  waiting := h.waiting

end World.Alike

end Onboarding
