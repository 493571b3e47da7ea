import Onboarding.Bech32
import Onboarding.Domain
import Onboarding.Service.World
/-!
# Enrollment — registering an email for a wallet

The first registration of an owner draws its codes and is stored; a later one, once
the throttle has passed, renews it and mails the code that is already stored. The
code of an inviter starts a referral, at most one for a receiver.
-/

namespace Onboarding

namespace Enrollment

variable {σ : Type} [Store σ]

/-- Starts the referral of a receiver by the owner of a code, who has to be someone
else. -/
def attach (receiver : Owner) (code : String) (now : Timestamp) : TransactionM σ Unit := do
  match ← TransactionM.find (Store.byReferralCode · code) with
  | none => throw .invalidReferralCode
  | some sender =>
    if sender.owner = receiver then throw .invalidReferralCode
    else
      tryCatch (TransactionM.write (Store.createReferral sender.owner receiver now)) fun
        | .store (.duplicate _) => throw .alreadyExists
        | e => throw e

/-- Draws referral codes until one is free, `n` times at most. -/
def freeCode : Nat → TransactionM σ String
  | 0 => throw (.store (.duplicate "no free referral code"))
  | n + 1 => do
    let code ← TransactionM.drawCode Randomness.referralCode
    match ← TransactionM.find (Store.byReferralCode · code) with
    | none => return code
    | some _ => freeCode n

/-- Draws of a referral code before a registration gives up. -/
def codeAttempts : Nat := 8

/-- Renews a registration that is not confirmed. An inviter's code is taken if the
registration has none, and has to be the same if it has one. -/
def renew (r : Registration) (code? : Option String) (now : Timestamp) :
    TransactionM σ Registration := do
  let referralCode ← match r.referralCode, code? with
    | stored, none => pure stored
    | some stored, some given =>
      if stored = given then pure (some stored) else throw .alreadyExists
    | none, some given => do
      attach r.owner given now
      pure (some given)
  let renewed := { r with referralCode, createdAt := now }
  TransactionM.write (Store.putRegistration renewed)
  return renewed

/-- Stores the first registration of an owner, unless its address is bound to another
owner. -/
def create (owner : Owner) (email : String) (address : WalletAddress) (code? : Option String)
    (now : Timestamp) : TransactionM σ Registration := do
  match ← TransactionM.find (Store.byAddress · address) with
  | some bound => if bound.owner ≠ owner then throw .alreadyExists
  | none => pure ()
  let code ← TransactionM.drawCode Randomness.verificationCode
  let ownReferralCode ← freeCode codeAttempts
  let r : Registration :=
    { owner, email, address, code, createdAt := now, confirmedAt := none, ownReferralCode,
      referralCode := code? }
  TransactionM.write (Store.putRegistration r)
  match code? with
  | some given => attach owner given now
  | none => pure ()
  return r

/-- The transaction of a registration. -/
def enroll (settings : Settings) (owner : Owner) (email : String) (address : WalletAddress)
    (code? : Option String) (now : Timestamp) : TransactionM σ Registration := do
  match ← TransactionM.find (Store.registration · owner) with
  | some r =>
    if r.isConfirmed then throw .alreadyExists
    else if r.createdAt.elapsed now < settings.throttleSeconds.toNat then throw .tooManyAttempts
    else renew r code? now
  | none => create owner email address code? now

/-- The transaction that gives an inviter to a registration that has none. -/
def trackIn (receiver : Owner) (code : String) (now : Timestamp) : TransactionM σ Unit := do
  match ← TransactionM.find (Store.registration · receiver) with
  | none => throw .notFound
  | some r =>
    if r.isConfirmed || r.referralCode.isSome then throw .alreadyExists
    else
      attach receiver code now
      TransactionM.write (Store.putRegistration { r with referralCode := some code })

/-- Refuses a text that is no address. -/
def checkAddress (settings : Settings) (address : WalletAddress) : ServiceM σ Unit :=
  match Bech32.validate address.text settings.addressPrefix with
  | .ok () => pure ()
  | .error e => throw (.invalidAddress e.message)

end Enrollment

variable {σ : Type} [Store σ]

/-- Registers an email for a wallet and mails the verification code. -/
def register (settings : Settings) (email : String) (address : WalletAddress)
    (code? : Option String) : ServiceM σ Owner := do
  Enrollment.checkAddress settings address
  if ← ServiceM.read (Store.isFraudEmail · email) then throw .fraudDomain
  let owner := Owner.ofEmail email
  let now ← ServiceM.now
  let r ← ServiceM.transaction (Enrollment.enroll settings owner email address code? now)
  ServiceM.mail (.verification r.email r.code)
  return owner

/-- Gives an inviter to a registration that is not confirmed and has none. -/
def trackReferral (receiver : Owner) (code : String) : ServiceM σ Unit := do
  let now ← ServiceM.now
  ServiceM.transaction (Enrollment.trackIn receiver code now)

end Onboarding
