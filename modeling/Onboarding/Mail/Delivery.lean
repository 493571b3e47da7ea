import Onboarding.Http.Client
import Onboarding.Mail.Message
import Onboarding.Schema.Json
/-!
# Mail delivery — messages posted to a mail service
-/

namespace Onboarding

/-- Why a mail was not delivered. -/
inductive MailError where
  | requestFailed (reason : String)
  | unreachable (reason : String)
  | rejected (reason : String)
deriving DecidableEq, Repr

/-- The wording of each reason. -/
def MailError.message : MailError → String
  | requestFailed reason => "HTTP request to mail API failed: " ++ reason
  | unreachable reason => "mail API unreachable: " ++ reason
  | rejected reason => "mail API rejected message: " ++ reason

/-- A mail service, and the key that it asks for. -/
structure MailService where
  endpoint : String
  apiKey : String
deriving DecidableEq, Repr

namespace MailService

/-- The failure of a delivery that got no answer. -/
def ofFault : CallFault → MailError
  | .unsendable reason => .requestFailed reason
  | .unreachable reason => .unreachable reason

/-- The call that posts a message. -/
def call (s : MailService) (m : MailMessage) : OutgoingCall where
  url := s.endpoint
  bearer := some s.apiKey
  body := (MailMessage.schema.toJson m).render

/-- Delivers a message. -/
def deliver (net : Network) (s : MailService) (m : MailMessage) : Except MailError Unit :=
  match (s.call m).send net with
  | .error f => .error (ofFault f)
  | .ok (status, answer) =>
    if 200 ≤ status && status < 300 then .ok ()
    else .error (.rejected s!"HTTP status {status}: {answer}")

end MailService

end Onboarding
