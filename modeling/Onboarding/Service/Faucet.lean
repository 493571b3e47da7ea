import Onboarding.Service.Enrollment
/-!
# The faucet — a stake for a wallet without an email

On test networks a wallet can be granted a stake directly, once. The grant is stored
as a registration without an email that is confirmed from the start.
-/

namespace Onboarding

namespace Faucet

variable {σ : Type} [Store σ]

/-- The memo of a grant. -/
def memo (address : WalletAddress) : String := "testnet-stake:" ++ address.text

/-- Fails if something is found. -/
def expectNone (f : σ → Except StoreError Registration) : ServiceM σ Unit := do
  if (← ServiceM.find f).isSome then throw .alreadyExists

/-- The transaction that stores a grant. -/
def grantIn (owner : Owner) (address : WalletAddress) (now : Timestamp) :
    TransactionM σ Unit := do
  let code ← TransactionM.drawCode Randomness.verificationCode
  let ownReferralCode ← Enrollment.freeCode Enrollment.codeAttempts
  TransactionM.write (Store.createConfirmed
    { owner, email := "", address, code, createdAt := now, confirmedAt := some now,
      ownReferralCode, referralCode := none })

end Faucet

/-- Grants a stake to a wallet that has none. -/
def grantTestnetStake {σ : Type} [Store σ] (settings : Settings) (address : WalletAddress) :
    ServiceM σ Owner := do
  match settings.testnetStake with
  | none => throw .faucetDisabled
  | some stake =>
    Enrollment.checkAddress settings address
    let owner := Owner.ofAddress address.text
    Faucet.expectNone (Store.byAddress · address)
    Faucet.expectNone (Store.registration · owner)
    ServiceM.pay ⟨address, stake, Faucet.memo address⟩
    let now ← ServiceM.now
    match ← ServiceM.tryTransaction (Faucet.grantIn owner address now) with
    | .ok () => return owner
    | .error (.store (.duplicate _)) => throw .alreadyExists
    | .error e => throw e

end Onboarding
