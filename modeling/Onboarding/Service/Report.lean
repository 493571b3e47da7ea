import Onboarding.Service.World
/-!
# Reports — what the service tells about itself without changing anything
-/

namespace Onboarding

variable {σ : Type} [Store σ]

/-- Confirmed registrations overall and by day. -/
def registrationStats : ServiceM σ RegistrationStats := do
  let total ← ServiceM.read Store.confirmedTotal
  let byDay ← ServiceM.read Store.confirmedByDay
  return ⟨total, byDay⟩

/-- The referrals of a sender, counted. -/
def senderStats (sender : Owner) : ServiceM σ ReferralStats :=
  ServiceM.read (Store.referralStats · sender)

/-- The referrals that wait in `installed` for more than some days. -/
def staleReferrals (days : UInt64) : ServiceM σ (List Referral) := do
  let now ← ServiceM.now
  ServiceM.read (Store.installedBefore · (now.minusDays days))

/-- Checks that the chain answers. -/
def pingChain : ServiceM σ Unit := fun w =>
  match w.ledger.ping with
  | .ok () => (.ok (), w)
  | .error e => (.error (.chain e), w)

end Onboarding
