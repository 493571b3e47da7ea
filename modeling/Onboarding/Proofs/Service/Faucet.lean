import Onboarding.Proofs.Service.Enrollment
import Onboarding.Service.Faucet
/-!
# The faucet — a grant is paid before it is stored

A grant looks for a registration of the owner and for one that binds the wallet, and
only where there is neither transfers the stake. What is stored afterwards is confirmed
from the start; if that fails, the transfer was made all the same.
-/

namespace Onboarding

open StoreView

namespace Faucet

/-- The look for something that must not be there. -/
theorem expectNone_cases {σ : Type} (f : σ → Except StoreError Registration) (w : World σ) :
    (Except.found? (f w.store) = .ok none ∧ expectNone f w = (.ok (), w)) ∨
      ∃ e, expectNone f w = (.error e, w) := by
  unfold expectNone
  rcases ServiceM.find_cases f w with ⟨found, hfound, hfind⟩ | ⟨e, -, hfind⟩
  · rw [Computation.bind_of_ok hfind]
    cases found with
    | none => exact .inl ⟨hfound, rfl⟩
    | some r => exact .inr ⟨_, rfl⟩
  · exact .inr ⟨_, Computation.bind_of_error hfind⟩

theorem expectNone_of_found {σ : Type} {f : σ → Except StoreError Registration} {w : World σ}
    {r : Registration} (h : f w.store = .ok r) : expectNone f w = (.error .alreadyExists, w) := by
  have hfind : ServiceM.find f w = (.ok (some r), w) := ServiceM.read_of_ok (by rw [h]; rfl)
  unfold expectNone
  rw [Computation.bind_of_ok hfind]
  rfl

theorem expectNone_of_missing {σ : Type} {f : σ → Except StoreError Registration} {w : World σ}
    {key : String} (h : f w.store = .error (.notFound key)) : expectNone f w = (.ok (), w) := by
  have hfind : ServiceM.find f w = (.ok none, w) := ServiceM.read_of_ok (by rw [h]; rfl)
  unfold expectNone
  rw [Computation.bind_of_ok hfind]
  rfl

section Stored

variable {σ : Type} [Store σ] [LawfulStore σ] {s s' : σ} {g g' : Randomness}
  {address : WalletAddress}

/-- The draws that the transaction of a grant makes: a code that is never mailed, and a
code to hand out. -/
def codes {τ : Type} [Store τ] : TransactionM τ (String × String) := do
  let code ← TransactionM.drawCode Randomness.verificationCode
  let ownCode ← Enrollment.freeCode Enrollment.codeAttempts
  return (code, ownCode)

/-- The registration that a grant is stored as. -/
def row (address : WalletAddress) (now : Timestamp) (code ownCode : String) : Registration :=
  { owner := .ofAddress address.text, email := "", address, code, createdAt := now,
    confirmedAt := some now, ownReferralCode := ownCode, referralCode := none }

/-- The transaction of a grant draws its codes and then stores its row. -/
theorem grantIn_eq {τ : Type} [Store τ] (address : WalletAddress) (now : Timestamp)
    (p : τ × Randomness) :
    grantIn (.ofAddress address.text) address now p = (codes >>= fun c =>
      TransactionM.write (Store.createConfirmed (row address now c.1 c.2))) p := by
  unfold grantIn codes
  simp only [Computation.bind_apply]
  rcases TransactionM.drawCode Randomness.verificationCode p with ⟨_ | code, p₁⟩
  · rfl
  · dsimp only
    rcases Enrollment.freeCode Enrollment.codeAttempts p₁ with ⟨_ | own, p₂⟩ <;> rfl

/-- Codes that are drawn leave the store alone, can be stored, and nobody hands out the
second one. -/
theorem codes_ok (hs : Sound s) (now : Timestamp) {code ownCode : String}
    (haddress : KeyTable.IsKey (Utf8.bytes address.text))
    (h : codes (s, g) = (.ok (code, ownCode), (s', g'))) :
    s' = s ∧ (row address now code ownCode).Storable ∧
      (contents s).CodeFree (row address now code ownCode) := by
  obtain ⟨drawn, ⟨s₁, g₁⟩, hdraw, h₁⟩ := Computation.bind_eq_ok h
  obtain ⟨hdrawn, rfl⟩ := TransactionM.drawCode_eq_ok hdraw
  obtain ⟨own, ⟨s₂, g₂⟩, hfree, h₂⟩ := Computation.bind_eq_ok h₁
  obtain ⟨rfl, hownLength, hunused⟩ := Enrollment.freeCode_ok hs hfree
  cases h₂
  refine ⟨rfl, ⟨Owner.isHash_ofAddress _, ?_, haddress, ?_, ?_, nofun⟩,
    fun q hq => absurd hq (hunused q)⟩
  · show byteLength "" < UInt64.size
    decide
  · show byteLength code < UInt64.size
    rw [Randomness.byteLength_drawCode hdrawn]
    decide
  · exact isKey_of_byteLength hownLength (by decide) (by decide)

/-- A grant that is stored is a registration of its own, confirmed from the start. -/
theorem grantIn_ok {settings : Settings} (hs : Sound s) {now : Timestamp} {stake : TokenAmount}
    (haddress : KeyTable.IsKey (Utf8.bytes address.text))
    (hstake : settings.testnetStake = some stake)
    (h : grantIn (.ofAddress address.text) address now (s, g) = (.ok (), (s', g'))) :
    ∃ r c, r.owner = .ofAddress address.text ∧ r.address = address ∧ Becomes s c s' ∧
      ∀ b : Books, b.contents = contents s → Step settings now b (.granted r) { b with
        contents := c
        transfers := b.transfers ++ [grant stake address] } := by
  rw [grantIn_eq] at h
  obtain ⟨⟨code, ownCode⟩, ⟨s₁, g₁⟩, hcodes, hwrite⟩ := Computation.bind_eq_ok h
  obtain ⟨rfl, hstorable, hcodeFree⟩ := codes_ok hs now haddress hcodes
  obtain ⟨hcreate, rfl⟩ := TransactionM.write_eq_ok hwrite
  obtain ⟨hcreated, hbecomes⟩ :=
    (LawfulStore.createConfirmed hs hstorable hcodeFree).of_eq_ok hcreate
  obtain ⟨habsent, hunbound, hcontents⟩ := Contents.creates_ok hcreated
  rw [hcontents] at hbecomes
  refine ⟨row address now code ownCode, _, rfl, rfl, hbecomes, fun b hb => ?_⟩
  rw [← hb] at habsent hunbound hcodeFree ⊢
  exact .granted hstake rfl rfl rfl rfl habsent hunbound hcodeFree hstorable

/-- **A grant whose codes are drawn is stored** by a store that does not fail, if nothing
stands in its way. -/
theorem grantIn_of_codes (hs : Sound s) (hsafe : failing s = []) (now : Timestamp)
    (haddress : KeyTable.IsKey (Utf8.bytes address.text))
    (habsent : (contents s).registration (.ofAddress address.text) = none)
    (hunbound : ∀ q, ¬ (contents s).Binds address q) {c : String × String}
    {p : σ × Randomness} (h : codes (s, g) = (.ok c, p)) :
    ∃ p', grantIn (.ofAddress address.text) address now (s, g) = (.ok (), p') := by
  obtain ⟨code, ownCode⟩ := c
  obtain ⟨s₁, g₁⟩ := p
  obtain ⟨rfl, hstorable, hcodeFree⟩ := codes_ok hs now haddress h
  rw [grantIn_eq, Computation.bind_of_ok h]
  have hwritten := LawfulStore.createConfirmed hs hstorable hcodeFree
  obtain ⟨s₂, hout⟩ : ∃ s₂, Store.createConfirmed (row address now code ownCode) s₁ =
      (.ok (), s₂) := by
    refine hwritten.eq_ok (fun e h => ?_) (by simp [hsafe])
    cases h with
    | unconfirmed h => cases h
    | known h => cases habsent.symm.trans h
    | bound h => exact absurd h (hunbound _)
  exact ⟨_, TransactionM.write_of_ok hout⟩

end Stored

end Faucet

/-- What a grant answers and the entry it makes. -/
inductive Granting {σ : Type} [Store σ] [StoreView σ] (w : World σ) (address : WalletAddress) :
    Except ServiceError Owner → Entry → Prop
  | done {r : Registration} (owner_eq : r.owner = .ofAddress address.text)
      (address_eq : r.address = address) :
    Granting w address (.ok r.owner) (.granted r)
  | failed {e : ServiceError} : Granting w address (.error e) .nothing
  | refused {e : ServiceError} : Granting w address (.error e) (.grantRefused address)
  /-- If the store did not fail, the codes could not be drawn. -/
  | lost {e : ServiceError} (undrawn : failing w.store = [] →
      ∃ e p, Faucet.codes (w.store, w.random) = (.error e, p)) :
    Granting w address (.error e) (.grantLost address)

section Calls

variable {σ : Type} [Store σ] [LawfulStore σ] {settings : Settings} {w : World σ}

/-- **A grant makes one of four entries**, and answers success with the one. -/
theorem grantTestnetStake_made (hw : w.Good) (address : WalletAddress) :
    ∃ entry, Granting w address (grantTestnetStake settings address w).1 entry ∧
      Made settings w (grantTestnetStake settings address w).2 entry := by
  unfold grantTestnetStake
  cases hstake : settings.testnetStake with
  | none => exact ⟨.nothing, .failed, .nothing hw w.random⟩
  | some stake =>
  dsimp only
  rcases Enrollment.checkAddress_cases settings address w with ⟨e, hcheck⟩ | ⟨hcheck, haddress⟩
  · rw [Computation.bind_of_error hcheck]
    exact ⟨.nothing, .failed, .nothing hw w.random⟩
  rw [Computation.bind_of_ok hcheck]
  rcases Faucet.expectNone_cases (Store.byAddress · address) w with ⟨hfound, hnone⟩ | ⟨e, hnone⟩
  swap
  · rw [Computation.bind_of_error hnone]
    exact ⟨.nothing, .failed, .nothing hw w.random⟩
  -- nothing binds the wallet, and its owner is not registered
  have hunbound := (LawfulStore.byAddress address hw.sound).of_missing hfound
  rw [Computation.bind_of_ok hnone]
  rcases Faucet.expectNone_cases (Store.registration · (.ofAddress address.text)) w with
    ⟨hfound', hnone'⟩ | ⟨e, hnone'⟩
  swap
  · rw [Computation.bind_of_error hnone']
    exact ⟨.nothing, .failed, .nothing hw w.random⟩
  have habsent := Option.eq_none_iff_forall_ne_some.2
    ((LawfulStore.registration _ hw.sound).of_missing hfound')
  rw [Computation.bind_of_ok hnone']
  rcases ServiceM.pay_cases ⟨address, stake, Faucet.memo address⟩ hw.quiet with
    ⟨l, hpay, htransfers, hrefusals⟩ | ⟨e, l, -, hpay, htransfers, hrefusals⟩
  swap
  · rw [Computation.bind_of_error hpay]
    refine ⟨.grantRefused address, .refused, .of_becomes hw (.refl hw.sound) ?_⟩
    rw [htransfers, hrefusals]
    exact .grantRefused hstake habsent hunbound
  rw [Computation.bind_of_ok hpay, Computation.bind_of_ok (ServiceM.now_apply _)]
  -- the transfer was accepted; whether it can be stored is seen only now
  rcases ServiceM.tryTransaction_cases
    (Faucet.grantIn (.ofAddress address.text) address w.clock) { w with ledger := l } with
    ⟨_, s, g, hbody, htransaction⟩ | ⟨e, g, hfailed, htransaction⟩
  · rw [Computation.bind_of_ok htransaction]
    obtain ⟨r, c, howner, hr, hbecomes, hstep⟩ :=
      Faucet.grantIn_ok hw.sound haddress hstake hbody
    refine ⟨.granted r, ?_, .of_becomes hw hbecomes ?_⟩
    · rw [← howner]
      exact .done howner hr
    · rw [htransfers, hrefusals]
      exact hstep w.books rfl
  · rw [Computation.bind_of_ok htransaction]
    have hlost : Made settings w { w with ledger := l, random := g } (.grantLost address) := by
      refine .of_becomes hw (.refl hw.sound) ?_
      rw [htransfers, hrefusals]
      exact .grantLost hstake habsent hunbound
    have hundrawn : failing w.store = [] →
        ∃ e p, Faucet.codes (w.store, w.random) = (.error e, p) := by
      intro hsafe
      rcases hcodes : Faucet.codes (w.store, w.random) with ⟨e | c, p⟩
      · exact ⟨e, p, rfl⟩
      -- codes that were drawn would have been stored
      obtain ⟨p', hbody⟩ := Faucet.grantIn_of_codes hw.sound hsafe w.clock haddress habsent
        hunbound hcodes
      refine absurd (Store.transaction_of_ok ?_ hbody) (hfailed _ _)
      rw [hsafe]
      exact List.not_mem_nil
    -- the failure that is answered depends on the error, the entry does not
    cases e with
    | store e => cases e <;> exact ⟨.grantLost address, .lost hundrawn, hlost⟩
    | _ => exact ⟨.grantLost address, .lost hundrawn, hlost⟩

end Calls

end Onboarding
