import Onboarding.Service.World
/-!
# Confirmation — checking the mailed code and granting the stake

A confirmation goes in four steps: the code is checked, the stake is transferred, the
confirmation is stored, and the owner is greeted. Other calls may run between them.
-/

namespace Onboarding

namespace Confirmation

variable {σ : Type} [Store σ]

/-- The registration of an owner who submits the right code. An unknown owner and a
wrong code are not told apart. -/
def check (owner : Owner) (code : String) : ServiceM σ Registration := do
  match ← ServiceM.find (Store.registration · owner) with
  | none => throw .notFound
  | some r =>
    if !codesMatch r.code code then throw .notFound
    else if r.isConfirmed then throw .alreadyExists
    else return r

/-- The memo of an owner's stake. It is the same each time, so that a repeated grant
can be recognized. -/
def stakeMemo (owner : Owner) : String := "stake:" ++ owner.text

/-- Transfers the stake. -/
def grantStake (settings : Settings) (owner : Owner) (r : Registration) : ServiceM σ Unit :=
  ServiceM.pay ⟨r.address, settings.initialStake, stakeMemo owner⟩

/-- Stores the confirmation. -/
def record (owner : Owner) : ServiceM σ Unit := do
  let now ← ServiceM.now
  match ← ServiceM.write (Store.confirmRegistration owner now) with
  | .ok () => pure ()
  | .error (.conflict _) => throw .alreadyExists
  | .error e => throw (.store e)

/-- Sends the welcome mail and leaves the owner's referral to be paid. -/
def greet (owner : Owner) (r : Registration) : ServiceM σ Unit := do
  ServiceM.mail (.welcome r.email)
  ServiceM.later owner

end Confirmation

/-- Confirms the registration of an owner with the mailed code. -/
def confirm {σ : Type} [Store σ] (settings : Settings) (owner : Owner) (code : String) :
    ServiceM σ Unit := do
  let r ← Confirmation.check owner code
  Confirmation.grantStake settings owner r
  Confirmation.record owner
  Confirmation.greet owner r

end Onboarding
