import Onboarding.Http.Target
/-!
# Routes — the paths that are answered

A path is matched part by part, as it is written; the parts that stand for an owner or
a code are not empty, and their escapes are resolved only after the match.
-/

namespace Onboarding

/-- The methods that routes take. -/
inductive Method where
  | get
  | post
deriving DecidableEq, Repr

/-- What a route with this method allows. A route that answers `GET` answers `HEAD`
too. -/
def Method.allow : Method → String
  | .get => "GET,HEAD"
  | .post => "POST"

/-- A route, with the parts of the path that it takes. -/
inductive Route where
  | register
  | confirm (owner code : List Char)
  | testnetStake
  | trackReferral
  | referralInstalled (owner : List Char)
  | referralStats (owner : List Char)
  | registrationStats
  | health
  | metrics
deriving DecidableEq, Repr

namespace Route

/-- The route of a path. -/
def ofPath? (path : List Char) : Option Route :=
  match (Target.segments path).map String.ofList with
  | ["", "v1", "register"] => some register
  | ["", "v1", "confirm", owner, code] =>
    if owner.isEmpty || code.isEmpty then none else some (confirm owner.toList code.toList)
  | ["", "v1", "testnet", "stake"] => some testnetStake
  | ["", "v1", "referral", "track"] => some trackReferral
  | ["", "v1", "referral", "installed", owner] =>
    if owner.isEmpty then none else some (referralInstalled owner.toList)
  | ["", "v1", "referral", "stats", owner] =>
    if owner.isEmpty then none else some (referralStats owner.toList)
  | ["", "v1", "registration", "stats"] => some registrationStats
  | ["", "health"] => some health
  | ["", "metrics"] => some metrics
  | _ => none

/-- The method of a route. -/
def method : Route → Method
  | register | testnetStake | trackReferral | referralInstalled _ => .post
  | _ => .get

end Route

end Onboarding
