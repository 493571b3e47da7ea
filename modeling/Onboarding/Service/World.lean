import Onboarding.Service.Error
import Onboarding.Settings
import Onboarding.Store.Transaction
/-!
# The world — everything a call on the service can change

A `World` holds the store, the source of randomness, the chain, the mails that were
sent, the clock, and the owners whose referrals are still to be paid in the
background. A call on the service takes one world to the next; each of its steps is
one call on the store, one transaction, one transfer or one mail.

For trying out what happens while a transfer is under way, an `Interruption` can be
laid in wait: it changes the store right after the next transfer is accepted.
-/

namespace Onboarding

/-- A mail that was handed over for sending. -/
inductive Mail where
  | verification (email code : String)
  | welcome (email : String)
deriving DecidableEq, Repr, Inhabited

namespace Mail

/-- The codes of the verification mails, in order. -/
def codes (mails : List Mail) : List String :=
  mails.filterMap fun
    | verification _ code => some code
    | welcome _ => none

/-- The number of welcome mails. -/
def welcomeCount (mails : List Mail) : Nat :=
  mails.countP fun
    | welcome _ => true
    | verification _ _ => false

end Mail

/-- What someone else does to the store while a transfer returns. -/
structure Interruption (σ : Type) where
  effect : σ → σ
  /-- The transfer does not return to whoever made it. -/
  breaksOff : Bool

/-- The surroundings of the service. -/
structure World (σ : Type) where
  store : σ
  random : Randomness := { }
  ledger : Ledger := { }
  /-- Mails sent, oldest first. -/
  outbox : List Mail := []
  clock : Timestamp
  /-- Receivers whose referrals wait to be advanced, in the order of the calls. -/
  pending : List Owner := []
  interruption : Option (Interruption σ) := none

/-- A call on the service, or a step of one. -/
abbrev ServiceM (σ : Type) := ExceptT ServiceError (StateM (World σ))

/-- The body of a transaction that a call on the service makes. -/
abbrev TransactionM (σ : Type) := Body ServiceError σ Randomness

namespace TransactionM

variable {σ α : Type}

/-- Something read inside a transaction. -/
def read (f : σ → Except StoreError α) : TransactionM σ α := Body.read .store f

/-- A record read inside a transaction; nothing if its key is missing. -/
def find (f : σ → Except StoreError α) : TransactionM σ (Option α) :=
  read fun s => Except.found? (f s)

/-- A write inside a transaction. -/
def write (op : StoreM σ Unit) : TransactionM σ Unit := Body.write .store op

/-- A code drawn inside a transaction. -/
def drawCode (f : Randomness → Except RandomFault String × Randomness) : TransactionM σ String :=
  Body.companion fun g =>
    match f g with
    | (.ok code, g') => (.ok code, g')
    | (.error e, g') => (.error (.random e), g')

end TransactionM

namespace World

variable {σ : Type}

/-- Makes a transfer. -/
def pay (t : Transfer) (w : World σ) : Except ChainError Unit × World σ :=
  match w.ledger.send t with
  | (.error e, l) => (.error e, { w with ledger := l })
  | (.ok (), l) =>
    match w.interruption with
    | none => (.ok (), { w with ledger := l })
    | some i =>
      (if i.breaksOff then .error .interrupted else .ok (),
        { w with ledger := l, store := i.effect w.store, interruption := none })

end World

namespace ServiceM

variable {σ α : Type}

/-- The reading of the clock. -/
def now : ServiceM σ Timestamp := fun w => (.ok w.clock, w)

/-- Something read from the store. -/
def read (f : σ → Except StoreError α) : ServiceM σ α := fun w =>
  match f w.store with
  | .ok a => (.ok a, w)
  | .error e => (.error (.store e), w)

/-- A record read from the store; nothing if its key is missing. -/
def find (f : σ → Except StoreError α) : ServiceM σ (Option α) :=
  read fun s => Except.found? (f s)

/-- A write to the store, and why it failed if it did. -/
def write (op : StoreM σ Unit) : ServiceM σ (Except StoreError Unit) := fun w =>
  match Store.alone op w.store with
  | (r, s) => (.ok r, { w with store := s })

/-- A transaction, and why it failed if it did. -/
def tryTransaction [Store σ] (body : TransactionM σ α) : ServiceM σ (Except ServiceError α) :=
  fun w =>
    match Store.transaction .store body (w.store, w.random) with
    | (r, (s, g)) => (.ok r, { w with store := s, random := g })

/-- A transaction. -/
def transaction [Store σ] (body : TransactionM σ α) : ServiceM σ α := do
  ofExcept (← tryTransaction body)
where
  /-- A result that was handed on, taken as the call's own. -/
  ofExcept : Except ServiceError α → ServiceM σ α := fun r w => (r, w)

/-- A transfer. -/
def pay (t : Transfer) : ServiceM σ Unit := fun w =>
  match w.pay t with
  | (.ok (), w') => (.ok (), w')
  | (.error e, w') => (.error (.chain e), w')

/-- Hands over a mail. -/
def mail (m : Mail) : ServiceM σ Unit := fun w => (.ok (), { w with outbox := w.outbox ++ [m] })

/-- Leaves the referral of a receiver to be advanced in the background. -/
def later (receiver : Owner) : ServiceM σ Unit := fun w =>
  (.ok (), { w with pending := w.pending ++ [receiver] })

end ServiceM

end Onboarding
