import Onboarding.Proofs.Service.Faucet
import Onboarding.Proofs.Service.Lockstep.Steps
import Onboarding.Proofs.Service.Payout
/-!
# Bodies in lockstep — the transactions of the service on two stores

Every transaction asks its store for what there is at most once, and so does the same on
stores that are alike. The one read that may answer differently is by address, where it
matters only whether anybody is bound (`create_matched`). A code that is asked for must not
be empty: the stores disagree about the empty code.
-/

namespace Onboarding

open StoreView

variable {σ τ : Type} [Store σ] [Store τ] [LawfulStore σ] [LawfulStore τ] {s : σ} {t : τ}
  {g : Randomness}

namespace Enrollment

/-- A code that was drawn is not empty. -/
theorem ne_empty_of_draw {g' : Randomness} {code : String}
    (h : Randomness.referralCode g = (.ok code, g')) : code ≠ "" := by
  have hlength := Randomness.byteLength_drawCode h
  rintro rfl
  exact absurd hlength (by decide)

theorem attach_matched (h : Alike s t) {receiver : Owner} {code : String} (now : Timestamp)
    (hreceiver : receiver.IsHash) (hcode : code ≠ "") :
    Matched InStep SameDraws (attach receiver code now (s, g))
      (attach receiver code now (t, g)) := by
  unfold attach
  refine TransactionM.find_matched ?_ fun found hfound => ?_
  · exact h.byReferralCode hcode
  cases found with
  | none => exact .error rfl
  | some q =>
    have hq := (LawfulStore.byReferralCode code h.soundLeft).of_found (found?_eq_some hfound)
    have hsender := (h.coherent.storable hq.1).owner
    dsimp only
    by_cases hself : q.owner = receiver
    · rw [if_pos hself, if_pos hself]
      exact .error rfl
    · rw [if_neg hself, if_neg hself]
      have hwrite := TransactionM.write_matched (g := g) (h.createReferral hsender hreceiver now)
      refine hwrite.tryCatch fun e s' t' hdraws => ?_
      split <;> exact .error hdraws

/-- What follows the start of a referral finds every registration as it was, and a code
that fits where texts are measured. -/
theorem attached_matched (h : Alike s t) {receiver : Owner} {code : String} (now : Timestamp)
    (hreceiver : receiver.IsHash) (hcode : code ≠ "") {r : Registration}
    (hheld : (contents s).Holds r) {β : Type} {k : Unit → TransactionM σ β}
    {k' : Unit → TransactionM τ β}
    (hrest : ∀ s' t' g', Alike s' t' → (contents s').Holds r →
      (∀ c, some code = some c → byteLength c < UInt64.size) →
      Matched InStep SameDraws (k () (s', g')) (k' () (t', g'))) :
    Matched InStep SameDraws ((attach receiver code now >>= k) (s, g))
      ((attach receiver code now >>= k') (t, g)) := by
  refine (attach_matched h now hreceiver hcode).bind ?_
  rintro _ ⟨s', g'⟩ ⟨t', _⟩ hattach - ⟨h', rfl⟩
  obtain ⟨sender?, hinvited, hbecomes⟩ := attach_ok h.soundLeft hreceiver hattach
  exact hrest s' t' g' h' (holds_of_invite hbecomes hheld)
    (byteLength_of_invited h.soundLeft hinvited)

theorem freeCode_matched (h : Alike s t) (n : Nat) :
    Matched InStep SameDraws (freeCode n (s, g)) (freeCode n (t, g)) := by
  induction n generalizing g with
  | zero => exact .error rfl
  | succ n ih =>
    unfold freeCode
    refine TransactionM.drawCode_matched fun code g' hdraw => ?_
    refine TransactionM.find_matched ?_ fun found _ => ?_
    · exact h.byReferralCode (ne_empty_of_draw hdraw)
    cases found with
    | none => exact .ok ⟨h, rfl⟩
    | some q => exact ih

/-- A registration whose inviter or time changed is put into both stores. -/
theorem put_matched (h : Alike s t) {r r' : Registration} (hheld : (contents s).Holds r)
    (hfresh : r.confirmedAt = none) (hr' : r'.Storable) (howner : r'.owner = r.owner) :
    Matched InStep SameDraws (TransactionM.write (Store.putRegistration r') (s, g))
      (TransactionM.write (Store.putRegistration r') (t, g)) :=
  TransactionM.write_matched (h.putRegistration hr' (isConfirmed_of_held hheld hfresh howner))

/-- The end of a renewal, with an inviter that can be stored. -/
theorem put_renewed_matched (h : Alike s t) {r : Registration} {inviter : Option String}
    {now : Timestamp} (hheld : (contents s).Holds r) (hfresh : r.confirmedAt = none)
    (hfits : ∀ c, inviter = some c → byteLength c < UInt64.size) :
    Matched InStep SameDraws
      ((do
        let renewed := { r with referralCode := inviter, createdAt := now }
        TransactionM.write (Store.putRegistration renewed)
        return renewed : TransactionM σ Registration) (s, g))
      ((do
        let renewed := { r with referralCode := inviter, createdAt := now }
        TransactionM.write (Store.putRegistration renewed)
        return renewed : TransactionM τ Registration) (t, g)) := by
  have hr := (h.coherent.storable hheld).invite hfits now
  exact (put_matched h hheld hfresh hr rfl).bind fun _ _ _ _ _ hstep => .ok hstep

theorem renew_matched (h : Alike s t) {r : Registration} {code? : Option String} (now : Timestamp)
    (hheld : (contents s).Holds r) (hfresh : r.confirmedAt = none)
    (hcodes : ∀ code, code? = some code → code ≠ "") :
    Matched InStep SameDraws (renew r code? now (s, g)) (renew r code? now (t, g)) := by
  have hr := h.coherent.storable hheld
  have hkeep := hr.referralCode
  unfold renew
  dsimp only
  generalize r.referralCode = inviter at hkeep ⊢
  cases code? with
  | none => exact put_renewed_matched h hheld hfresh hkeep
  | some given =>
    cases inviter with
    | none =>
      refine attached_matched h now hr.owner (hcodes given rfl) hheld ?_
      intro s' t' g' h' hheld' hfits
      exact put_renewed_matched h' hheld' hfresh hfits
    | some stored =>
      dsimp only
      by_cases hsame : stored = given
      · rw [if_pos hsame, if_pos hsame]
        exact put_renewed_matched h hheld hfresh hkeep
      · rw [if_neg hsame, if_neg hsame]
        exact .error rfl

theorem create_matched (h : Alike s t) {owner : Owner} {email : String} {address : WalletAddress}
    {code? : Option String} (now : Timestamp) (howner : owner.IsHash)
    (hemail : byteLength email < UInt64.size) (haddress : KeyTable.IsKey (Utf8.bytes address.text))
    (hfits : ∀ c, code? = some c → byteLength c < UInt64.size)
    (hcodes : ∀ code, code? = some code → code ≠ "")
    (habsent : (contents s).registration owner = none) :
    Matched InStep SameDraws (create owner email address code? now (s, g))
      (create owner email address code? now (t, g)) := by
  have hother : ∀ {q : Registration}, (contents s).Binds address q → q.owner ≠ owner := by
    rintro q hq rfl
    cases habsent.symm.trans hq.1
  unfold create
  rcases h.byAddress (mt Utf8.bytes_eq_nil.2 haddress.1) with
    ⟨p, q, hp, hq, hbindsLeft, hbindsRight⟩ | ⟨key, hleft, hright, -⟩
  -- whoever is bound is somebody else
  · have hfind : TransactionM.find (Store.byAddress · address) (s, g) = (.ok (some p), (s, g)) :=
      TransactionM.find_of_ok hp
    have hfind' : TransactionM.find (Store.byAddress · address) (t, g) = (.ok (some q), (t, g)) :=
      TransactionM.find_of_ok hq
    rw [Computation.bind_of_ok hfind, Computation.bind_of_ok hfind']
    dsimp only
    rw [if_pos (hother hbindsLeft), if_pos (hother hbindsRight)]
    exact .error rfl
  have hfind : TransactionM.find (Store.byAddress · address) (s, g) = (.ok none, (s, g)) :=
    TransactionM.find_of_missing hleft
  have hfind' : TransactionM.find (Store.byAddress · address) (t, g) = (.ok none, (t, g)) :=
    TransactionM.find_of_missing hright
  rw [Computation.bind_of_ok hfind, Computation.bind_of_ok hfind']
  dsimp only
  refine TransactionM.drawCode_matched fun code g' hdraw => ?_
  refine (freeCode_matched h codeAttempts).bind ?_
  rintro own ⟨s', g''⟩ ⟨t', _⟩ hfree hfree' ⟨h', rfl⟩
  obtain ⟨rfl, hown, -⟩ := freeCode_ok h.soundLeft hfree
  obtain ⟨rfl, -, -⟩ := freeCode_ok h.soundRight hfree'
  have hstorable := storable_first now howner hemail haddress hfits hdraw hown
  have hopen : ∀ q, (contents s').registration owner = some q → q.isConfirmed = false := by
    intro q hq
    cases habsent.symm.trans hq
  refine (TransactionM.write_matched (h'.putRegistration hstorable hopen)).bind ?_
  rintro _ ⟨s₁, g₁⟩ ⟨t₁, _⟩ - - ⟨h₁, rfl⟩
  cases code? with
  | none => exact .ok ⟨h₁, rfl⟩
  | some given =>
    exact (attach_matched h₁ now howner (hcodes given rfl)).bind fun _ _ _ _ _ hstep => .ok hstep

/-- **The transaction of a registration.** -/
theorem enroll_matched (h : Alike s t) (settings : Settings) {email : String}
    {address : WalletAddress} {code? : Option String} (now : Timestamp)
    (hemail : byteLength email < UInt64.size) (haddress : KeyTable.IsKey (Utf8.bytes address.text))
    (hfits : ∀ c, code? = some c → byteLength c < UInt64.size)
    (hcodes : ∀ code, code? = some code → code ≠ "") :
    Matched InStep SameDraws
      (enroll settings (.ofEmail email) email address code? now (s, g))
      (enroll settings (.ofEmail email) email address code? now (t, g)) := by
  have howner := Owner.isHash_ofEmail email
  have hsearch := LawfulStore.registration (.ofEmail email) h.soundLeft
  unfold enroll
  refine TransactionM.find_matched ?_ fun found hfound => ?_
  · exact h.registration howner.text_ne
  cases found with
  | none =>
    have habsent := Option.eq_none_iff_forall_ne_some.2 (hsearch.of_missing hfound)
    exact create_matched h now howner hemail haddress hfits hcodes habsent
  | some old =>
    have hheld := h.coherent.holds (hsearch.of_found (found?_eq_some hfound))
    dsimp only
    by_cases hconfirmed : old.isConfirmed = true
    · rw [if_pos hconfirmed, if_pos hconfirmed]
      exact .error rfl
    rw [if_neg hconfirmed, if_neg hconfirmed]
    by_cases hsoon : old.createdAt.elapsed now < settings.throttleSeconds.toNat
    · rw [if_pos hsoon, if_pos hsoon]
      exact .error rfl
    rw [if_neg hsoon, if_neg hsoon]
    have hfresh : old.confirmedAt = none := by simpa [Registration.isConfirmed] using hconfirmed
    exact renew_matched h now hheld hfresh hcodes

/-- **The transaction that gives an inviter.** -/
theorem trackIn_matched (h : Alike s t) {receiver : Owner} {code : String} (now : Timestamp)
    (hreceiver : receiver.IsHash) (hcode : code ≠ "") :
    Matched InStep SameDraws (trackIn receiver code now (s, g))
      (trackIn receiver code now (t, g)) := by
  unfold trackIn
  refine TransactionM.find_matched ?_ fun found hfound => ?_
  · exact h.registration hreceiver.text_ne
  cases found with
  | none => exact .error rfl
  | some old =>
    have hold := (LawfulStore.registration receiver h.soundLeft).of_found (found?_eq_some hfound)
    have hheld := h.coherent.holds hold
    have hr := h.coherent.storable hheld
    dsimp only
    by_cases hclosed : (old.isConfirmed || old.referralCode.isSome) = true
    · rw [if_pos hclosed, if_pos hclosed]
      exact .error rfl
    rw [if_neg hclosed, if_neg hclosed]
    have hfresh : old.confirmedAt = none := by
      simp only [Registration.isConfirmed, Bool.or_eq_true, not_or] at hclosed
      simpa using hclosed.1
    refine attached_matched h now hreceiver hcode hheld ?_
    intro s' t' g' h' hheld' hfits
    exact put_matched h' hheld' hfresh (hr.invite hfits old.createdAt) rfl

end Enrollment

namespace Faucet

theorem codes_matched (h : Alike s t) :
    Matched InStep SameDraws (codes (s, g)) (codes (t, g)) := by
  unfold codes
  refine TransactionM.drawCode_matched fun code g' _ => ?_
  exact (Enrollment.freeCode_matched h Enrollment.codeAttempts).bind
    fun _ _ _ _ _ hstep => .ok hstep

/-- **The transaction of a grant**, where nothing stands in its way. -/
theorem grantIn_matched (h : Alike s t) {address : WalletAddress} (now : Timestamp)
    (haddress : KeyTable.IsKey (Utf8.bytes address.text))
    (habsent : (contents s).registration (.ofAddress address.text) = none)
    (hunbound : ∀ q, ¬ (contents s).Binds address q) :
    Matched InStep SameDraws (grantIn (.ofAddress address.text) address now (s, g))
      (grantIn (.ofAddress address.text) address now (t, g)) := by
  rw [grantIn_eq, grantIn_eq]
  refine (codes_matched h).bind ?_
  rintro ⟨code, ownCode⟩ ⟨s', g'⟩ ⟨t', _⟩ hcodes - ⟨h', rfl⟩
  obtain ⟨rfl, hstorable, hfree⟩ := codes_ok h.soundLeft now haddress hcodes
  exact TransactionM.write_matched (h'.createConfirmed hstorable hfree rfl habsent hunbound)

end Faucet

namespace Payout

/-- **The transaction of a payout.** -/
theorem plan_matched (h : Alike s t) (settings : Settings) {receiver : Owner} (now : Timestamp)
    (hreceiver : receiver.IsHash) :
    Matched InStep SameDraws (plan settings receiver now (s, g))
      (plan settings receiver now (t, g)) := by
  unfold plan
  refine TransactionM.find_matched ?_ fun found hfound => ?_
  · exact h.referral hreceiver.text_ne
  cases found with
  | none => exact .ok ⟨h, rfl⟩
  | some f =>
    have hf := (LawfulStore.referral receiver h.soundLeft).of_found (found?_eq_some hfound)
    have hsender := (h.coherent.parties hf).sender
    dsimp only
    by_cases hstatus : f.status = .installed
    swap
    · rw [if_pos hstatus, if_pos hstatus]
      exact .ok ⟨h, rfl⟩
    rw [if_neg (not_not.2 hstatus), if_neg (not_not.2 hstatus)]
    refine TransactionM.read_matched ?_ fun receiving _ => ?_
    · exact h.registration hreceiver.text_ne
    by_cases hready : receiving.isConfirmed = true
    swap
    · rw [if_pos (by simpa using hready), if_pos (by simpa using hready)]
      exact .ok ⟨h, rfl⟩
    rw [if_neg (by simpa using hready), if_neg (by simpa using hready)]
    refine TransactionM.read_matched ?_ fun sending _ => ?_
    · exact h.registration hsender.text_ne
    refine TransactionM.read_matched ?_ fun n _ => ?_
    · exact h.confirmedReferralCount hsender
    refine (TransactionM.write_matched (h.confirmReferral hreceiver.text_ne _ _ now)).bind ?_
    exact fun _ _ _ _ _ hstep => .ok hstep

end Payout

end Onboarding
