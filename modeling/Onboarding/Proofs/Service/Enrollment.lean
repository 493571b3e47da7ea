import Onboarding.Proofs.Service.World
import Onboarding.Service.Enrollment
/-!
# Enrollment — what a registration leaves in the contents

The transactions of `register` and `trackReferral` are followed through: `attach` finds
an inviter and starts a referral, `freeCode` finds a code nobody has, and `renew` and
`create` put a registration that can be stored. `enroll_ok` and `trackIn_ok` say what
a transaction that succeeds has found and what it leaves.
-/

namespace Onboarding

open StoreView

namespace Enrollment

variable {σ : Type} [Store σ] [LawfulStore σ] {s s' : σ} {g g' : Randomness}

/-- An inviter is found by the code, and the referral is started. -/
theorem attach_ok (hs : Sound s) {receiver : Owner} {code : String} {now : Timestamp}
    (hreceiver : receiver.IsHash) (h : attach receiver code now (s, g) = (.ok (), (s', g'))) :
    ∃ sender?, Invited (contents s) receiver (some code) sender? ∧
      Becomes s ((contents s).invite receiver now sender?) s' := by
  obtain ⟨found, ⟨s₁, g₁⟩, hfind, h⟩ := Computation.bind_eq_ok h
  obtain ⟨hfound, rfl, rfl⟩ := TransactionM.find_eq_ok hfind
  cases found with
  | none => cases h
  | some q =>
    have hq := (LawfulStore.byReferralCode code hs).of_found (found?_eq_some hfound)
    simp only at h
    split at h
    -- nobody invites themselves; only the failure of a write is looked at again
    · cases h
    · rename_i hother
      rw [Computation.tryCatch_apply] at h
      split at h
      · rename_i hwrite
        cases h
        obtain ⟨hcreate, rfl⟩ := TransactionM.write_eq_ok hwrite
        have hsender := ((LawfulStore.coherent hs).storable hq.1).owner
        obtain ⟨hstarted, hbecomes⟩ :=
          (LawfulStore.createReferral now hs hsender hreceiver).of_eq_ok hcreate
        obtain ⟨hfirst, hcontents⟩ := Contents.startReferral_eq_ok.1 hstarted.symm
        rw [hcontents] at hbecomes
        exact ⟨some q.owner, .invited hq hother hfirst, hbecomes⟩
      · split at h <;> cases h

/-- A free code is short, and nobody has it. -/
theorem freeCode_ok (hs : Sound s) {n : Nat} {code : String}
    (h : freeCode n (s, g) = (.ok code, (s', g'))) :
    s' = s ∧ byteLength code = 2 * Randomness.referralLength ∧
      ∀ q, ¬ (contents s).HasCode code q := by
  induction n generalizing g with
  | zero => cases h
  | succ n ih =>
    obtain ⟨drawn, ⟨s₁, g₁⟩, hdraw, hrest⟩ := Computation.bind_eq_ok h
    obtain ⟨hdrawn, rfl⟩ := TransactionM.drawCode_eq_ok hdraw
    obtain ⟨found, ⟨s₂, g₂⟩, hfind, hlast⟩ := Computation.bind_eq_ok hrest
    obtain ⟨hfound, rfl, rfl⟩ := TransactionM.find_eq_ok hfind
    cases found with
    | none =>
      cases hlast
      exact ⟨rfl, Randomness.byteLength_drawCode hdrawn,
        (LawfulStore.byReferralCode code hs).of_missing hfound⟩
    | some _ => exact ih hlast

/-- A code that somebody hands out can be stored. -/
theorem byteLength_of_hasCode (hs : Sound s) {code : String} {q : Registration}
    (h : (contents s).HasCode code q) : byteLength code < UInt64.size :=
  h.2 ▸ Registration.byteLength_lt_of_isKey ((LawfulStore.coherent hs).storable h.1).ownReferralCode

/-- An inviter that was found has a code that can be stored. -/
theorem byteLength_of_invited (hs : Sound s) {receiver : Owner} {code : String}
    {sender? : Option Owner} (h : Invited (contents s) receiver (some code) sender?) :
    ∀ c, some code = some c → byteLength c < UInt64.size := by
  rintro c ⟨⟩
  cases h with
  | invited hcode _ _ => exact byteLength_of_hasCode hs hcode

/-- Starting a referral leaves the registrations where they were. -/
theorem holds_of_invite {receiver : Owner} {now : Timestamp} {sender? : Option Owner}
    (h : Becomes s ((contents s).invite receiver now sender?) s') {r : Registration}
    (hheld : (contents s).Holds r) : (contents s').Holds r := by
  rw [h.contents_eq, Contents.Holds, Contents.registration_invite]
  exact hheld

/-- A registration that is not confirmed stands under its owner alone. -/
theorem isConfirmed_of_held {c : Contents} {r r' : Registration} (hheld : c.Holds r)
    (hfresh : r.confirmedAt = none) (howner : r'.owner = r.owner) (q : Registration)
    (hq : c.registration r'.owner = some q) : q.isConfirmed = false := by
  rw [howner, hheld] at hq
  cases hq
  rw [Registration.isConfirmed, hfresh]
  rfl

/-- A registration whose inviter or time changed can be put. -/
theorem put_ok (hs : Sound s) {r r' : Registration} (hheld : (contents s).Holds r)
    (hfresh : r.confirmedAt = none) (hr' : r'.Storable) (howner : r'.owner = r.owner)
    (h : TransactionM.write (Store.putRegistration r') (s, g) = (.ok (), (s', g'))) :
    Becomes s ((contents s).put r') s' := by
  obtain ⟨hput, rfl⟩ := TransactionM.write_eq_ok h
  have hopen := isConfirmed_of_held hheld hfresh howner
  obtain ⟨hstored, hbecomes⟩ := (LawfulStore.putRegistration hs hr' hopen).of_eq_ok hput
  obtain ⟨-, hcontents⟩ := Contents.stores_ok hstored
  rw [hcontents] at hbecomes
  exact hbecomes

/-- The end of a renewal, with the inviter that was found. -/
theorem put_renewed_ok (hs : Sound s) {r r' : Registration} {inviter : Option String}
    {now : Timestamp} (hheld : (contents s).Holds r) (hfresh : r.confirmedAt = none)
    (hfits : ∀ c, inviter = some c → byteLength c < UInt64.size)
    (h : (do
      let renewed := { r with referralCode := inviter, createdAt := now }
      TransactionM.write (Store.putRegistration renewed)
      return renewed : TransactionM σ Registration) (s, g) = (.ok r', (s', g'))) :
    r' = { r with referralCode := inviter, createdAt := now } ∧
      Becomes s ((contents s).put r') s' := by
  have hr := (LawfulStore.coherent hs).storable hheld
  obtain ⟨_, ⟨s₁, g₁⟩, hwrite, hpure⟩ := Computation.bind_eq_ok h
  cases hpure
  exact ⟨rfl, put_ok hs hheld hfresh (hr.invite hfits now) rfl hwrite⟩

/-- A renewal takes an inviter or keeps what it has. -/
theorem renew_ok (hs : Sound s) {r r' : Registration} {code? : Option String} {now : Timestamp}
    (hheld : (contents s).Holds r) (hfresh : r.confirmedAt = none)
    (h : renew r code? now (s, g) = (.ok r', (s', g'))) :
    ∃ taken? sender?, (taken? = none ∨ r.referralCode = none) ∧
      Invited (contents s) r.owner taken? sender? ∧
      r' = { r with referralCode := taken?.or r.referralCode, createdAt := now } ∧
      Becomes s (((contents s).put r').invite r.owner now sender?) s' := by
  have hr := (LawfulStore.coherent hs).storable hheld
  have hkeep := hr.referralCode
  unfold renew at h
  dsimp only at h
  -- the inviter is generalized before the split, or its cases would not rewrite the record
  generalize r.referralCode = inviter at h hkeep ⊢
  split at h
  · obtain ⟨_, ⟨s₁, g₁⟩, hpure, hrest⟩ := Computation.bind_eq_ok h
    cases hpure
    obtain ⟨hr', hbecomes⟩ := put_renewed_ok hs hheld hfresh hkeep hrest
    exact ⟨none, none, .inl rfl, .alone, hr', hbecomes⟩
  · split at h
    · obtain ⟨_, ⟨s₁, g₁⟩, hpure, hrest⟩ := Computation.bind_eq_ok h
      cases hpure
      obtain ⟨hr', hbecomes⟩ := put_renewed_ok hs hheld hfresh hkeep hrest
      exact ⟨none, none, .inl rfl, .alone, hr', hbecomes⟩
    · cases h
  · rename_i given
    obtain ⟨_, ⟨s₁, g₁⟩, hattach, hrest⟩ := Computation.bind_eq_ok h
    obtain ⟨sender?, hinvited, hbecomes⟩ := attach_ok hs hr.owner hattach
    have hfits := byteLength_of_invited hs hinvited
    have hheld₁ := holds_of_invite hbecomes hheld
    obtain ⟨hr', hput⟩ := put_renewed_ok hbecomes.sound hheld₁ hfresh hfits hrest
    rw [hbecomes.contents_eq, Contents.put_invite] at hput
    exact ⟨some given, sender?, .inr rfl, hinvited, hr', hbecomes.trans hput⟩

/-- An address that is valid can be a key. -/
theorem isKey_of_validate {address expected : String} {u : Unit}
    (h : Bech32.validate address expected = .ok u) : KeyTable.IsKey (Utf8.bytes address) := by
  obtain ⟨hpos, hmax⟩ := Bech32.byteLength_of_validate h
  exact isKey_of_byteLength rfl hpos (Nat.le_trans hmax (by decide))

/-- An address that passes can be a key. -/
theorem checkAddress_cases {τ : Type} (settings : Settings) (address : WalletAddress)
    (w : World τ) :
    (∃ e, checkAddress settings address w = (.error e, w)) ∨
      checkAddress settings address w = (.ok (), w) ∧
        KeyTable.IsKey (Utf8.bytes address.text) := by
  unfold checkAddress
  cases hvalid : Bech32.validate address.text settings.addressPrefix with
  | error e => exact .inl ⟨_, rfl⟩
  | ok u => exact .inr ⟨rfl, isKey_of_validate hvalid⟩

/-- What follows the look at the wallet runs only if no registration binds it: one of the
owner itself would be the owner's registration. -/
theorem unbound_of_found (hs : Sound s) {α : Type} {owner : Owner} {address : WalletAddress}
    {found : Option Registration} {rest : TransactionM σ α} {a : α}
    (habsent : (contents s).registration owner = none)
    (hfound : Except.found? (Store.byAddress s address) = .ok found)
    (h : (match found with
      | some bound =>
        if bound.owner ≠ owner then
          (throw ServiceError.alreadyExists : TransactionM σ Unit) >>= fun _ => rest
        else rest
      | none => rest) (s, g) = (.ok a, (s', g'))) :
    (∀ q, ¬ (contents s).Binds address q) ∧ rest (s, g) = (.ok a, (s', g')) := by
  have hsearch := LawfulStore.byAddress address hs
  cases found with
  | none => exact ⟨hsearch.of_missing hfound, h⟩
  | some bound =>
    have hbound := hsearch.of_found (found?_eq_some hfound)
    dsimp only at h
    split at h
    · cases h
    · rename_i hsame
      rw [← not_not.1 hsame, hbound.1] at habsent
      cases habsent

/-- A first registration can be stored with the codes that were drawn for it. -/
theorem storable_first {owner : Owner} {email : String} {address : WalletAddress}
    {code? : Option String} (now : Timestamp) {code ownCode : String} (howner : owner.IsHash)
    (hemail : byteLength email < UInt64.size) (haddress : KeyTable.IsKey (Utf8.bytes address.text))
    (hcode : ∀ c, code? = some c → byteLength c < UInt64.size)
    (hdrawn : Randomness.verificationCode g = (.ok code, g'))
    (hown : byteLength ownCode = 2 * Randomness.referralLength) :
    Registration.Storable ⟨owner, email, address, code, now, none, ownCode, code?⟩ := by
  refine ⟨howner, hemail, haddress, ?_, ?_, hcode⟩
  · rw [Randomness.byteLength_drawCode hdrawn]
    decide
  · exact isKey_of_byteLength hown (by decide) (by decide)

/-- A first registration is stored for a wallet that is not bound, with a code of its
own. -/
theorem create_ok (hs : Sound s) {owner : Owner} {email : String} {address : WalletAddress}
    {code? : Option String} {now : Timestamp} {r : Registration} (howner : owner.IsHash)
    (hemail : byteLength email < UInt64.size) (haddress : KeyTable.IsKey (Utf8.bytes address.text))
    (hcode : ∀ c, code? = some c → byteLength c < UInt64.size)
    (habsent : (contents s).registration owner = none)
    (h : create owner email address code? now (s, g) = (.ok r, (s', g'))) :
    ∃ code ownCode sender?, r = ⟨owner, email, address, code, now, none, ownCode, code?⟩ ∧
      r.Storable ∧ (∀ q, ¬ (contents s).Binds address q) ∧ (contents s).CodeFree r ∧
      Invited (contents s) owner code? sender? ∧
      Becomes s (((contents s).put r).invite owner now sender?) s' := by
  obtain ⟨found, ⟨s₀, g₀⟩, hfind, h₀⟩ := Computation.bind_eq_ok h
  obtain ⟨hfound, rfl, rfl⟩ := TransactionM.find_eq_ok hfind
  dsimp only at h₀
  -- the wallet is free, then both codes are drawn, then the registration is put
  obtain ⟨hunbound, h₁⟩ := unbound_of_found hs habsent hfound h₀
  obtain ⟨code, ⟨s₁, g₁⟩, hdraw, h₂⟩ := Computation.bind_eq_ok h₁
  obtain ⟨hdrawn, rfl⟩ := TransactionM.drawCode_eq_ok hdraw
  obtain ⟨ownCode, ⟨s₂, g₂⟩, hfree, h₃⟩ := Computation.bind_eq_ok h₂
  obtain ⟨rfl, hownLength, hfree⟩ := freeCode_ok hs hfree
  obtain ⟨_, ⟨s₃, g₃⟩, hwrite, h₄⟩ := Computation.bind_eq_ok h₃
  have hstorable := storable_first now howner hemail haddress hcode hdrawn hownLength
  have hcodeFree : (contents s₂).CodeFree
      ⟨owner, email, address, code, now, none, ownCode, code?⟩ :=
    fun q hq => absurd hq (hfree q)
  obtain ⟨hput, rfl⟩ := TransactionM.write_eq_ok hwrite
  obtain ⟨hstored, hbecomes⟩ := (LawfulStore.putRegistration hs hstorable fun q hq => by
    rw [habsent] at hq
    cases hq).of_eq_ok hput
  obtain ⟨-, hcontents⟩ := Contents.stores_ok hstored
  rw [hcontents] at hbecomes
  cases code? with
  | none =>
    cases h₄
    exact ⟨code, ownCode, none, rfl, hstorable, hunbound, hcodeFree, .alone, hbecomes⟩
  | some given =>
    obtain ⟨_, ⟨s₄, g₄⟩, hattach, hpure⟩ := Computation.bind_eq_ok h₄
    cases hpure
    -- the inviter was looked for behind the write, but cannot be who has just been put
    obtain ⟨sender?, hinvited, hstarted⟩ := attach_ok hbecomes.sound howner hattach
    rw [hbecomes.contents_eq] at hinvited hstarted
    exact ⟨code, ownCode, sender?, rfl, hstorable, hunbound, hcodeFree, hinvited.of_put,
      hbecomes.trans hstarted⟩

/-- **The transaction of a registration** enrolls the owner or renews what it has. -/
theorem enroll_ok (hs : Sound s) {settings : Settings} {email : String} {address : WalletAddress}
    {code? : Option String} {now : Timestamp} {r : Registration}
    (hemail : byteLength email < UInt64.size) (haddress : KeyTable.IsKey (Utf8.bytes address.text))
    (hcode : ∀ c, code? = some c → byteLength c < UInt64.size)
    (h : enroll settings (.ofEmail email) email address code? now (s, g) = (.ok r, (s', g'))) :
    r.owner = .ofEmail email ∧ ∃ c entry, Becomes s c s' ∧
      (entry = .enrolled r ∧ r.email = email ∨ entry = .renewed r) ∧
      ∀ b : Books, b.contents = contents s → Step settings now b entry { b with
        contents := c
        outbox := b.outbox ++ [.verification r.email r.code] } := by
  have howner := Owner.isHash_ofEmail email
  obtain ⟨found, ⟨s₀, g₀⟩, hfind, h₀⟩ := Computation.bind_eq_ok h
  obtain ⟨hfound, rfl, rfl⟩ := TransactionM.find_eq_ok hfind
  have hsearch := LawfulStore.registration (.ofEmail email) hs
  cases found with
  | none =>
    have habsent := Option.eq_none_iff_forall_ne_some.2 (hsearch.of_missing hfound)
    obtain ⟨code, ownCode, sender?, rfl, hstorable, hunbound, hfree, hinvited, hbecomes⟩ :=
      create_ok hs howner hemail haddress hcode habsent h₀
    refine ⟨rfl, _, _, hbecomes, .inl ⟨rfl, rfl⟩, fun b hb => ?_⟩
    rw [← hb] at habsent hunbound hfree hinvited ⊢
    exact .enrolled rfl rfl rfl habsent hunbound hfree hstorable hinvited
  | some old =>
    have hold := hsearch.of_found (found?_eq_some hfound)
    have hheld := (LawfulStore.coherent hs).holds hold
    dsimp only at h₀
    split at h₀
    · cases h₀
    rename_i hunconfirmed
    split at h₀
    · cases h₀
    rename_i hwaited
    have hfresh : old.confirmedAt = none := by simpa [Registration.isConfirmed] using hunconfirmed
    have howner : old.owner = .ofEmail email := (LawfulStore.coherent hs).owner_eq hold
    obtain ⟨taken?, sender?, hfirst, hinvited, rfl, hbecomes⟩ := renew_ok hs hheld hfresh h₀
    refine ⟨howner, _, _, hbecomes, .inr rfl, fun b hb => ?_⟩
    rw [← hb] at hheld hinvited ⊢
    exact .renewed hheld hfresh (Nat.not_lt.1 hwaited) hfirst hinvited

/-- **The transaction that gives an inviter** puts it into a registration that has
none. -/
theorem trackIn_ok (hs : Sound s) {settings : Settings} {receiver : Owner} {code : String}
    {now : Timestamp} (h : trackIn receiver code now (s, g) = (.ok (), (s', g'))) :
    ∃ r c, r.owner = receiver ∧ Becomes s c s' ∧
      ∀ b : Books, b.contents = contents s →
        Step settings now b (.tracked r) { b with contents := c } := by
  obtain ⟨found, ⟨s₀, g₀⟩, hfind, h₀⟩ := Computation.bind_eq_ok h
  obtain ⟨hfound, rfl, rfl⟩ := TransactionM.find_eq_ok hfind
  cases found with
  | none => cases h₀
  | some old =>
    have hold := (LawfulStore.registration receiver hs).of_found (found?_eq_some hfound)
    have hheld := (LawfulStore.coherent hs).holds hold
    have howner := (LawfulStore.coherent hs).owner_eq hold
    have hr := (LawfulStore.coherent hs).storable hheld
    subst howner
    dsimp only at h₀
    split at h₀
    · cases h₀
    rename_i hopen
    obtain ⟨hfresh, hfirst⟩ : old.confirmedAt = none ∧ old.referralCode = none := by
      simpa [Registration.isConfirmed] using hopen
    obtain ⟨_, ⟨s₁, g₁⟩, hattach, hwrite⟩ := Computation.bind_eq_ok h₀
    obtain ⟨sender?, hinvited, hbecomes⟩ := attach_ok hs hr.owner hattach
    have hheld₁ := holds_of_invite hbecomes hheld
    have htracked := hr.invite (byteLength_of_invited hs hinvited) old.createdAt
    have hput := put_ok hbecomes.sound hheld₁ hfresh htracked rfl hwrite
    rw [hbecomes.contents_eq, Contents.put_invite] at hput
    refine ⟨{ old with referralCode := some code }, _, rfl, hbecomes.trans hput, fun b hb => ?_⟩
    rw [← hb] at hheld hinvited ⊢
    exact .tracked hheld hfresh hfirst hinvited

end Enrollment

/-! ## The calls -/

section Calls

variable {σ : Type} [Store σ] [LawfulStore σ] {settings : Settings} {w : World σ}

/-- **A registration enrolls or renews, or changes nothing.** -/
theorem register_made (hw : w.Good) {email : String} {address : WalletAddress}
    {code? : Option String} (hemail : byteLength email < UInt64.size)
    (hcode : ∀ c, code? = some c → byteLength c < UInt64.size) :
    (∃ r entry, (entry = .enrolled r ∧ r.email = email ∨ entry = .renewed r) ∧
        r.owner = .ofEmail email ∧
        (register settings email address code? w).1 = .ok r.owner ∧
        Made settings w (register settings email address code? w).2 entry) ∨
      (∃ e, (register settings email address code? w).1 = .error e) ∧
        Made settings w (register settings email address code? w).2 .nothing := by
  unfold register
  rcases Enrollment.checkAddress_cases settings address w with ⟨e, hcheck⟩ | ⟨hcheck, haddress⟩
  · rw [Computation.bind_of_error hcheck]
    exact .inr ⟨⟨e, rfl⟩, .nothing hw w.random⟩
  rw [Computation.bind_of_ok hcheck]
  rcases ServiceM.read_cases (Store.isFraudEmail · email) w with
    ⟨listed, -, hread⟩ | ⟨e, -, hread⟩
  swap
  · rw [Computation.bind_of_error hread]
    exact .inr ⟨⟨_, rfl⟩, .nothing hw w.random⟩
  rw [Computation.bind_of_ok hread]
  cases listed with
  | true => exact .inr ⟨⟨_, rfl⟩, .nothing hw w.random⟩
  | false =>
    simp only [Bool.false_eq_true, if_false]
    rw [Computation.bind_of_ok (ServiceM.now_apply w)]
    rcases ServiceM.transaction_cases
      (Enrollment.enroll settings (.ofEmail email) email address code? w.clock) w with
      ⟨r, s, g, hbody, htransaction⟩ | ⟨e, g, -, htransaction⟩
    · rw [Computation.bind_of_ok htransaction]
      obtain ⟨howner, c, entry, hbecomes, hentry, hstep⟩ :=
        Enrollment.enroll_ok hw.sound hemail haddress hcode hbody
      refine .inl ⟨r, entry, hentry, howner, congrArg Except.ok howner.symm, ?_⟩
      exact .of_becomes hw hbecomes (hstep w.books rfl)
    · rw [Computation.bind_of_error htransaction]
      exact .inr ⟨⟨_, rfl⟩, .nothing hw g⟩

/-- **An inviter is given or nothing changes.** -/
theorem trackReferral_made (hw : w.Good) {receiver : Owner} {code : String} :
    (∃ r, r.owner = receiver ∧ (trackReferral receiver code w).1 = .ok () ∧
        Made settings w (trackReferral receiver code w).2 (.tracked r)) ∨
      (∃ e, (trackReferral receiver code w).1 = .error e) ∧
        Made settings w (trackReferral receiver code w).2 .nothing := by
  unfold trackReferral
  rw [Computation.bind_of_ok (ServiceM.now_apply w)]
  rcases ServiceM.transaction_cases (Enrollment.trackIn receiver code w.clock) w with
    ⟨_, s, g, hbody, htransaction⟩ | ⟨e, g, -, htransaction⟩
  · rw [htransaction]
    obtain ⟨r, c, howner, hbecomes, hstep⟩ := Enrollment.trackIn_ok hw.sound hbody
    exact .inl ⟨r, howner, rfl, .of_becomes hw hbecomes (hstep w.books rfl)⟩
  · rw [htransaction]
    exact .inr ⟨⟨e, rfl⟩, .nothing hw g⟩

end Calls

end Onboarding
