import Onboarding.Mail.Message
/-!
# The mail queue — mails that wait for a worker

Mails are queued and handed over one by one, oldest first, by a worker that runs
beside everything else. A queue has room for its capacity, and for one mail at least;
a mail that finds it full, or the worker stopped, is dropped. A delivery that fails
changes nothing for later mails.
-/

namespace Onboarding

/-- A queue and its worker. -/
structure MailQueue where
  capacity : Nat
  /-- Mails that wait, oldest first. -/
  waiting : List MailMessage := []
  /-- The mail the worker is delivering. -/
  inHand : Option MailMessage := none
  /-- Mails that were handed to the transport, oldest first. -/
  handed : List MailMessage := []
  /-- The worker was stopped. -/
  stopped : Bool := false
deriving DecidableEq, Repr, Inhabited

namespace MailQueue

/-- The mails there is room for. -/
def room (q : MailQueue) : Nat := max q.capacity 1

/-- Whether a mail that is sent now is taken. -/
def accepts (q : MailQueue) : Bool := !q.stopped && q.waiting.length < q.room

/-- Sends a mail. -/
def send (m : MailMessage) (q : MailQueue) : MailQueue :=
  if q.accepts then { q with waiting := q.waiting ++ [m] } else q

/-- The worker takes the oldest mail, if it has none in hand. -/
def take (q : MailQueue) : MailQueue :=
  match q.stopped, q.inHand, q.waiting with
  | false, none, m :: rest => { q with waiting := rest, inHand := some m }
  | _, _, _ => q

/-- The worker hands the mail it took to the transport. -/
def deliver (q : MailQueue) : MailQueue :=
  match q.stopped, q.inHand with
  | false, some m => { q with inHand := none, handed := q.handed ++ [m] }
  | _, _ => q

/-- The worker runs until nothing waits. -/
def drain (q : MailQueue) : MailQueue :=
  let q := q.deliver
  if q.stopped then q else { q with waiting := [], handed := q.handed ++ q.waiting }

/-- The worker is stopped; what waits is lost. -/
def stop (q : MailQueue) : MailQueue :=
  { q with waiting := [], inHand := none, stopped := true }

/-- The mails that arrive when those to some recipients fail. -/
def arrived (fails : List String) (ms : List MailMessage) : List MailMessage :=
  ms.filter fun m => m.recipient ∉ fails

end MailQueue

end Onboarding
