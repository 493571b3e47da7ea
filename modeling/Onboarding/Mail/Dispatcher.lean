import Onboarding.Log.Line
import Onboarding.Mail.Delivery
import Onboarding.Mail.Queue
import Onboarding.Service.World
/-!
# The dispatcher — those who queue mails, and the worker that delivers them

A dispatcher renders the mails of the service and queues them. There is one at first; it and
its clones feed the same queue. A worker receives what waits and delivers it, and ends when
nothing waits and no dispatcher is left. A `Dispatch` is how far all of them have come, an
`Act` is one step of a dispatcher or of the worker, and a run is a list of acts in any order
in which each can happen.
-/

namespace Onboarding

/-- The message of a mail. -/
def MailTemplates.message (t : MailTemplates) : Mail → MailMessage
  | .verification email code => t.verification email code
  | .welcome email => t.welcome email

/-- The dispatchers, and the worker that they feed. -/
structure Dispatch where
  queue : MailQueue
  templates : MailTemplates := { }
  /-- The dispatchers that were not dropped. -/
  dispatchers : List Nat := [0]
  /-- What was logged, oldest first. -/
  logs : List LogLine := []
deriving DecidableEq, Repr

namespace Dispatch

/-- One step of a dispatcher or of the worker. -/
inductive Act where
  /-- A dispatcher is cloned. -/
  | clone (i new : Nat)
  | drop (i : Nat)
  /-- A dispatcher queues a mail. -/
  | send (i : Nat) (mail : Mail)
  /-- The worker receives the oldest mail. -/
  | receive
  /-- The mail that the worker has in hand was delivered, or was not. -/
  | deliver (outcome : Except MailError Unit)
  /-- The worker hears that there will be no more mails. -/
  | finish

/-- An event of the dispatcher or its worker. -/
def event (level : LogLevel) (message : String) (fields : List (String × LogValue) := []) :
    LogLine :=
  ⟨"vulcan_mail::dispatcher", level, message, fields⟩

/-- What is logged when the transport is done with a mail. -/
def deliveryEvent (m : MailMessage) : Except MailError Unit → LogLine
  | .ok () =>
    event .debug "mail delivered" [("to", .text m.recipient), ("subject", .text m.subject)]
  | .error e =>
    event .warn "mail delivery failed" [("to", .text m.recipient), ("error", .text e.message)]

/-- What is logged when the queue does not take a mail. -/
def dropEvent (q : MailQueue) (m : MailMessage) : LogLine :=
  let reason := if q.stopped then "worker stopped" else "queue full"
  event .warn "mail dropped" [("to", .text m.recipient), ("reason", .quoted reason)]

/-- Queues a message, or drops it. -/
def enqueue (m : MailMessage) (s : Dispatch) : Dispatch :=
  if s.queue.accepts then { s with queue := s.queue.send m }
  else { s with logs := s.logs ++ [dropEvent s.queue m] }

/-- The worker waits for a mail. -/
def isIdle (s : Dispatch) : Bool := !s.queue.stopped && s.queue.inHand.isNone

/-- What an act makes of it all, if it can happen. -/
def act (s : Dispatch) : Act → Option Dispatch
  | .clone i new =>
    if i ∈ s.dispatchers ∧ new ∉ s.dispatchers then
      some { s with dispatchers := s.dispatchers ++ [new] }
    else none
  | .drop i =>
    if i ∈ s.dispatchers then some { s with dispatchers := s.dispatchers.erase i } else none
  | .send i mail =>
    if i ∈ s.dispatchers then some (s.enqueue (s.templates.message mail)) else none
  | .receive =>
    if s.isIdle ∧ s.queue.waiting ≠ [] then some { s with queue := s.queue.take } else none
  | .deliver outcome =>
    match s.queue.stopped, s.queue.inHand with
    | false, some m =>
      some { s with queue := s.queue.deliver, logs := s.logs ++ [deliveryEvent m outcome] }
    | _, _ => none
  | .finish =>
    if s.isIdle ∧ s.queue.waiting = [] ∧ s.dispatchers = [] then
      some { s with
        queue := s.queue.stop
        logs := s.logs ++ [event .debug "mail worker stopped"] }
    else none

/-- A dispatcher and its worker at the start. -/
def spawn (templates : MailTemplates) (capacity : Nat) : Dispatch where
  queue := { capacity }
  templates

/-- Where a list of acts leads, if each can happen in its turn. -/
def run (s : Dispatch) (acts : List Act) : Option Dispatch := acts.foldlM act s

end Dispatch

end Onboarding
