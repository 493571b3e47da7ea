import Onboarding.Http.MediaType
import Onboarding.Url
/-!
# Outgoing calls — what can be sent, and to whom

A call can be sent if its address is one and its headers can be written. Whether
anyone answers is the network's matter; here the network is a function from addresses
to answers, and `noNetwork` answers nothing.
-/

namespace Onboarding

/-- Why a call got no answer. -/
inductive CallFault where
  | unsendable (reason : String)
  | unreachable (reason : String)
deriving DecidableEq, Repr

/-- A call to another service. -/
structure OutgoingCall where
  url : String
  /-- A token that proves who calls. -/
  bearer : Option String := none
  body : String := ""
deriving DecidableEq, Repr

/-- What the network answers: a status and a body, or the reason why it cannot. -/
abbrev Network := HttpUrl → OutgoingCall → Except String (Nat × String)

/-- A network where nobody listens. -/
def noNetwork : Network := fun _ _ => .error "connection refused"

/-- The header that carries a token. -/
def bearerHeader (token : String) : String := "Bearer " ++ token

/-- Makes a call. -/
def OutgoingCall.send (net : Network) (c : OutgoingCall) : Except CallFault (Nat × String) :=
  match HttpUrl.parse? c.url with
  | none => .error (.unsendable "invalid address")
  | some url =>
    if !c.bearer.all (fun t => MediaType.isHeaderValue (bearerHeader t)) then
      .error (.unsendable "invalid header")
    else match net url c with
      | .ok answer => .ok answer
      | .error reason => .error (.unreachable reason)

end Onboarding
