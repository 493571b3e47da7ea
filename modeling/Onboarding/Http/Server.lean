import Onboarding.Email
import Onboarding.Http.MediaType
import Onboarding.Http.Response
import Onboarding.Http.Route
import Onboarding.Metrics
import Onboarding.Schema.Json
import Onboarding.Service.Confirmation
import Onboarding.Service.Faucet
import Onboarding.Service.Payout
import Onboarding.Service.Report
/-!
# The server — requests and what they are answered

A request is read in this order: its syntax, its route, its method, the parts of its
path, the kind, the size and the form of its body. What fails here is refused without
being counted. What passes goes to the service with its texts trimmed and its email
normalized, and is counted by route and status.
-/

namespace Onboarding

/-- A request. -/
structure HttpRequest where
  method : String
  target : String
  contentType : Option String := none
  body : String := ""

/-- Why a request has no response. -/
inductive HttpFault where
  /-- It is not a request at all. -/
  | malformed
  /-- The call that answers it broke off. -/
  | brokeOff
deriving DecidableEq, Repr

/-- What the server works on. -/
structure Server (σ : Type) where
  world : World σ
  metrics : Metrics := .empty

/-- A request to register. -/
structure RegisterBody where
  email : String
  address : String
  referralCode : Option String

/-- The layout of a request to register. -/
def RegisterBody.schema : Schema RegisterBody :=
  .via
    (.record (.required "email" .text
      (.required "address" .text
      (.optional "referral_code" (.option .text) none .done))))
    (fun (a, b, c, ()) => ⟨a, b, c⟩) (fun r => (r.email, r.address, r.referralCode, ()))
    (fun _ => rfl) (fun _ => rfl)

/-- A request for a grant. -/
structure StakeBody where
  address : String

/-- The layout of a request for a grant. -/
def StakeBody.schema : Schema StakeBody :=
  .via (.record (.required "address" .text .done)) (fun (a, ()) => ⟨a⟩) (fun r => (r.address, ()))
    (fun _ => rfl) (fun _ => rfl)

/-- A request to take an inviter. -/
structure TrackBody where
  owner : String
  referralCode : String

/-- The layout of a request to take an inviter. -/
def TrackBody.schema : Schema TrackBody :=
  .via (.record (.required "owner" .text (.required "referral_code" .text .done)))
    (fun (a, b, ()) => ⟨a, b⟩) (fun r => (r.owner, r.referralCode, ()))
    (fun _ => rfl) (fun _ => rfl)

namespace Server

variable {σ : Type} [Store σ]

/-- A request on its way through the service. -/
abbrev Handler (σ : Type) := ExceptT RequestError (StateM (Server σ))

/-- A call on the service. -/
def call {α : Type} (f : ServiceM σ α) : Handler σ α := fun s =>
  match f s.world with
  | (.ok a, w) => (.ok a, { s with world := w })
  | (.error e, w) => (.error (.service e), { s with world := w })

/-- Counts something. -/
def count (f : Metrics → Metrics) : Handler σ Unit := fun s =>
  (.ok (), { s with metrics := f s.metrics })

/-- The owner in a path. An owner of another form cannot exist. -/
def pathOwner (text : String) : Handler σ Owner :=
  match Owner.parse text with
  | some o => pure o
  | none => throw .notFound

/-- An owner as an answer. -/
def ownerReply (o : Owner) : Json := .object [("owner", .text o.text)]

/-- Registers an email. -/
def register (settings : Settings) (b : RegisterBody) : Handler σ Json := do
  match Email.normalize? b.email with
  | none => throw (.invalid "invalid email")
  | some email =>
    let code? := (b.referralCode.map trim).filter (!·.isEmpty)
    let owner ← call (Onboarding.register settings email ⟨trim b.address⟩ code?)
    count fun m => { m with registrations := m.registrations + 1 }
    return ownerReply owner

/-- Confirms a registration. -/
def confirm (settings : Settings) (owner code : String) : Handler σ Unit := do
  let owner ← pathOwner owner
  call (Onboarding.confirm settings owner code)
  count fun m => { m with confirmations := m.confirmations + 1 }

/-- Grants a stake. -/
def testnetStake (settings : Settings) (b : StakeBody) : Handler σ Json := do
  return ownerReply (← call (grantTestnetStake settings ⟨trim b.address⟩))

/-- Gives an inviter to a registration. -/
def trackReferral (b : TrackBody) : Handler σ Unit := do
  let owner ← pathOwner b.owner
  call (Onboarding.trackReferral owner (trim b.referralCode))

/-- Takes note of an installation. -/
def referralInstalled (owner : String) : Handler σ Unit := do
  call (markInstalled (← pathOwner owner))

/-- Counts the referrals of an owner. -/
def referralStats (owner : String) : Handler σ Json := do
  match Owner.parse owner with
  | none => throw (.invalid (Owner.invalidMessage owner))
  | some o => return ReferralStats.schema.toJson (← call (senderStats o))

/-- Counts the confirmed registrations. -/
def statistics : Handler σ Json := do
  return RegistrationStats.schema.toJson (← call registrationStats)

/-- Whether the chain answers. -/
def health (s : Server σ) : Response :=
  match s.world.ledger.ping with
  | .ok () => .json 200 (.object [("status", .text "ok")])
  | .error _ => .json 503 (.object [("status", .text "unavailable")])

/-- The outcome of a request: a response, or none. -/
abbrev Outcome (σ : Type) := Server σ → Except HttpFault Response × Server σ

/-- A request refused before it reaches the service. -/
def refuse (status : Nat) : Outcome σ := fun s => (.ok { status }, s)

/-- Runs a handler and counts the request. -/
def counted (name : String) (success : Json → Response) (h : Handler σ Json) : Outcome σ :=
  fun s =>
    match h s with
    | (.error (.service e), s') =>
      if e.brokeOff then (.error .brokeOff, s') else answer (.ofError (.service e)) s'
    | (.error e, s') => answer (.ofError e) s'
    | (.ok j, s') => answer (success j) s'
where
  /-- A response, counted. -/
  answer (r : Response) : Outcome σ := fun s =>
    (.ok r, { s with metrics := s.metrics.observe name r.status 0 })

/-- A handler that answers with JSON. -/
def replying (name : String) (h : Handler σ Json) : Outcome σ := counted name (.json 200) h

/-- A handler that answers with nothing. -/
def silent (name : String) (h : Handler σ Unit) : Outcome σ :=
  counted name (fun _ => { status := 200 }) (h *> pure Json.null)

/-- The largest body, in bytes. -/
def maxBody : Nat := 2097152

/-- Reads the body of a request. Text behind a complete value is not looked at. -/
def withBody {α : Type} (q : HttpRequest) (schema : Schema α) (f : α → Outcome σ) : Outcome σ :=
  if !q.contentType.any MediaType.isJson then refuse 415
  else if maxBody < byteLength q.body then refuse 413
  else match schema.ofJsonFront q.body with
    | .error .malformed => refuse 400
    | .error .mismatch => refuse 422
    | .ok a => f a

/-- Reads a part of the path. -/
def withPart (part : List Char) (f : String → Outcome σ) : Outcome σ :=
  match Target.segment? part with
  | none => refuse 400
  | some text => f text

/-- Answers a request on a route. -/
def answer (settings : Settings) (q : HttpRequest) : Route → Outcome σ
  | .register =>
    withBody q RegisterBody.schema fun b => replying "register" (register settings b)
  | .confirm owner code =>
    withPart owner fun owner => withPart code fun code =>
      silent "confirm" (confirm settings owner code)
  | .testnetStake =>
    withBody q StakeBody.schema fun b => replying "testnet_stake" (testnetStake settings b)
  | .trackReferral =>
    withBody q TrackBody.schema fun b => silent "referral_track" (trackReferral b)
  | .referralInstalled owner =>
    withPart owner fun owner => silent "referral_installed" (referralInstalled owner)
  | .referralStats owner =>
    withPart owner fun owner => replying "referral_stats" (referralStats owner)
  | .registrationStats => replying "registration_stats" statistics
  | .health => fun s => (.ok (health s), s)
  | .metrics => fun s =>
    (.ok { status := 200, content := some (.metrics s.metrics.lines) }, s)

/-- Whether a request is one at all. -/
def isRequest (q : HttpRequest) : Bool :=
  MediaType.isMethodName q.method && q.contentType.all MediaType.isHeaderValue

/-- Answers a request. -/
def handle (settings : Settings) (q : HttpRequest) : Outcome σ :=
  match Target.path? q.target with
  | none => fun s => (.error .malformed, s)
  | some path =>
    if !isRequest q then fun s => (.error .malformed, s)
    else match Route.ofPath? path with
      | none => refuse 404
      | some route =>
        match route.method, q.method with
        | .get, "GET" | .post, "POST" => answer settings q route
        | .get, "HEAD" => fun s =>
          match answer settings q route s with
          | (r, s') => (r.map Response.withoutBody, s')
        | m, _ => fun s => (.ok { status := 405, allow := some m.allow }, s)

end Server

end Onboarding
