import Onboarding.Bech32
import Onboarding.Chain
import Onboarding.Http.Client
import Onboarding.Schema.Basic
import Onboarding.Schema.Json
/-!
# The broadcaster — transfers handed to a service that signs them

Transfers are posted to a service that signs and submits them. An address is checked
before anything is sent.
-/

namespace Onboarding

/-- What is posted for a transfer. -/
structure TransferBody where
  recipient : String
  denom : String
  amount : UInt64
  memo : String
deriving DecidableEq, Repr, Inhabited

/-- The sent layout. -/
def TransferBody.schema : Schema TransferBody :=
  .via
    (.record (.required "to" .text
      (.required "denom" .text
      (.required "amount" .word
      (.required "memo" .text .done)))))
    (fun (a, b, c, d, ()) => ⟨a, b, c, d⟩)
    (fun t => (t.recipient, t.denom, t.amount, t.memo, ()))
    (fun _ => rfl) (fun _ => rfl)

/-- A broadcaster and what it is used for. -/
structure Broadcaster where
  endpoint : String
  addressPrefix : String := "decentr"
  denom : String := "udec"
deriving DecidableEq, Repr

namespace Broadcaster

/-- An address without the slashes at its end. -/
def trimSlashes (endpoint : String) : String :=
  String.ofList (endpoint.toList.reverse.dropWhile (· = '/')).reverse

/-- The failure of a transfer or a check that got no answer. -/
def ofFault : CallFault → ChainError
  | .unsendable reason => .requestFailed reason
  | .unreachable reason => .unreachable reason

/-- What is posted for a transfer. -/
def body (b : Broadcaster) (t : Transfer) : TransferBody :=
  ⟨t.address.text, b.denom, t.amount.units, t.memo⟩

/-- The call that posts a transfer. -/
def transferCall (b : Broadcaster) (t : Transfer) : OutgoingCall where
  url := trimSlashes b.endpoint ++ "/v1/transfers"
  body := (TransferBody.schema.toJson (b.body t)).render

/-- The call that asks whether the broadcaster is there. -/
def statusCall (b : Broadcaster) : OutgoingCall := { url := trimSlashes b.endpoint ++ "/v1/status" }

/-- Whether a status means success. -/
def isSuccess (status : Nat) : Bool := 200 ≤ status && status < 300

/-- Makes a call and expects a status of success. -/
def expectSuccess (net : Network) (c : OutgoingCall) : Except ChainError String :=
  match c.send net with
  | .error f => .error (ofFault f)
  | .ok (status, answer) =>
    if isSuccess status then .ok answer else .error (.requestFailed s!"HTTP status {status}")

/-- Posts a transfer. -/
def send (net : Network) (b : Broadcaster) (t : Transfer) : Except ChainError Unit :=
  match Bech32.validate t.address.text b.addressPrefix with
  | .error e => .error (.invalidAddress (t.address.text ++ ": " ++ e.message))
  | .ok () => (expectSuccess net (b.transferCall t)).map fun _ => ()

/-- Asks whether the broadcaster is there. -/
def ping (net : Network) (b : Broadcaster) : Except ChainError Unit :=
  (expectSuccess net b.statusCall).map fun _ => ()

end Broadcaster

end Onboarding
