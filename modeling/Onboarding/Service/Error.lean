import Onboarding.Chain
import Onboarding.Randomness
import Onboarding.Store.Error
/-!
# Service errors — why a call on the service is refused or fails

The first group is told to clients; the last three wrap a failure of the storage, the
chain or the source of randomness.
-/

namespace Onboarding

/-- Why a call on the service did not succeed. -/
inductive ServiceError where
  | invalidAddress (reason : String)
  | alreadyExists
  | tooManyAttempts
  /-- An unknown owner or a wrong code; the two are not told apart. -/
  | notFound
  | fraudDomain
  | invalidReferralCode
  | invalidTransition (reason : String)
  | faucetDisabled
  | invalidConfig (reason : String)
  | store (e : StoreError)
  | chain (e : ChainError)
  | random (f : RandomFault)
deriving DecidableEq, Repr

namespace ServiceError

/-- The wording of each error. -/
def message : ServiceError → String
  | invalidAddress reason => "invalid address: " ++ reason
  | alreadyExists => "already exists"
  | tooManyAttempts => "too many attempts"
  | notFound => "not found"
  | fraudDomain => "email domain is on the fraud list"
  | invalidReferralCode => "invalid referral code"
  | invalidTransition reason => "invalid referral transition: " ++ reason
  | faucetDisabled => "testnet faucet is disabled"
  | invalidConfig reason => "invalid configuration: " ++ reason
  | store e => "storage: " ++ e.message
  | chain e => "blockchain: " ++ e.message
  | random f => "random source: " ++ f.message

/-- Whether the call broke off without an answer. -/
def brokeOff (e : ServiceError) : Bool := e == store .damaged || e == chain .interrupted

end ServiceError

end Onboarding
