import Onboarding.Json
import Onboarding.Service.Error
/-!
# Responses — what clients are told

Every way for a request to be refused or to fail has a status. Failures that are
nobody's business but the operator's are answered without a description.
-/

namespace Onboarding

/-- Why a request did not succeed. -/
inductive RequestError where
  | invalid (reason : String)
  | notFound
  | server (reason : String)
  | service (e : ServiceError)
deriving DecidableEq, Repr

namespace RequestError

/-- The wording of each error. -/
def message : RequestError → String
  | invalid reason => "invalid request: " ++ reason
  | notFound => "not found"
  | server reason => "server error: " ++ reason
  | service e => e.message

/-- The status of each error. -/
def status : RequestError → Nat
  | invalid _ => 400
  | notFound => 404
  | server _ => 500
  | service (.invalidAddress _) | service .invalidReferralCode => 400
  | service .fraudDomain => 403
  | service .notFound | service .faucetDisabled => 404
  | service .alreadyExists | service (.invalidTransition _) => 409
  | service .tooManyAttempts => 429
  | service (.invalidConfig _) | service (.store _) | service (.chain _) | service (.random _) =>
    500

/-- What the client is told: nothing about failures inside the service. -/
def publicMessage (e : RequestError) : String :=
  if 500 ≤ e.status then "internal error" else e.message

end RequestError

/-- The content of a response. -/
inductive Content where
  /-- JSON, or its announcement without a body. -/
  | json (body : Option Json)
  /-- Metrics, line by line. -/
  | metrics (lines : List String)

/-- The media type of metrics. -/
def Content.metricsType : String := "text/plain; version=0.0.4"

/-- A response to a request. -/
structure Response where
  status : Nat
  /-- The methods that would have been allowed. -/
  allow : Option String := none
  /-- The content, unless it is empty or a text for people. -/
  content : Option Content := none

namespace Response

/-- A response with a JSON body. -/
def json (status : Nat) (body : Json) : Response := { status, content := some (.json (some body)) }

/-- The response to an error. -/
def ofError (e : RequestError) : Response :=
  json e.status (.object [("error", .text e.publicMessage)])

/-- The response without its body. -/
def withoutBody (r : Response) : Response :=
  { r with content := r.content.map fun
      | .json _ => .json none
      | .metrics _ => .metrics [] }

end Response

end Onboarding
