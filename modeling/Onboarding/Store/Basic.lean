import Onboarding.Registration
import Onboarding.Referral
import Onboarding.Store.Error
/-!
# Stores — what the service asks of its storage

A `Store` keeps registrations by owner, referrals by receiver and a denylist of
email domains. Reads look at a state; writes take one state to the next, and say
whether they failed. A write that fails may have changed something before it did:
`Store.alone` and `Store.transaction` undo that.

The counts at the end are derived from the reads and the same for every store.
-/

namespace Onboarding

/-- A write: it fails or succeeds, and leaves a state either way. -/
abbrev StoreM (σ : Type) := ExceptT StoreError (StateM σ)

/-- The operations of a store, as a list of failures names them. -/
inductive StoreOp where
  | getRequest
  | setRequest
  | setConfirmed
  | createConfirmed
  | getByAddress
  | getByReferralCode
  | iterConfirmed
  | createReferral
  | getReferral
  | installReferral
  | confirmReferral
  | referralsBySender
  | installedBefore
  | isFraudDomain
  | putFraudDomain
  | transaction
deriving DecidableEq, Repr

/-- The name of an operation. -/
def StoreOp.name : StoreOp → String
  | getRequest => "get_request"
  | setRequest => "set_request"
  | setConfirmed => "set_confirmed"
  | createConfirmed => "create_testnet_confirmed_request"
  | getByAddress => "get_confirmed_request_by_address"
  | getByReferralCode => "get_request_by_own_referral_code"
  | iterConfirmed => "iter_confirmed_requests"
  | createReferral => "create_referral_tracking"
  | getReferral => "get_referral_tracking_by_receiver"
  | installReferral => "transition_referral_tracking_to_installed"
  | confirmReferral => "transition_referral_tracking_to_confirmed"
  | referralsBySender => "referrals_by_sender"
  | installedBefore => "installed_referrals_before"
  | isFraudDomain => "is_fraud_domain"
  | putFraudDomain => "put_fraud_domain"
  | transaction => "in_tx"

/-- Every operation. -/
def StoreOp.all : List StoreOp :=
  [getRequest, setRequest, setConfirmed, createConfirmed, getByAddress, getByReferralCode,
    iterConfirmed, createReferral, getReferral, installReferral, confirmReferral,
    referralsBySender, installedBefore, isFraudDomain, putFraudDomain, transaction]

/-- The operation of a name. -/
def StoreOp.ofName? (name : String) : Option StoreOp :=
  StoreOp.all.find? (·.name == name)

/-- The storage of the registration service. -/
class Store (σ : Type) where
  /-- A store that holds nothing. -/
  empty : σ
  /-- The registration of an owner. -/
  registration : σ → Owner → Except StoreError Registration
  /-- The confirmed registration an address is bound to. -/
  byAddress : σ → WalletAddress → Except StoreError Registration
  /-- The registration whose own referral code is the given one. -/
  byReferralCode : σ → String → Except StoreError Registration
  /-- Every confirmed registration. -/
  confirmedRegistrations : σ → Except StoreError (List Registration)
  /-- The referral of a receiver. -/
  referral : σ → Owner → Except StoreError Referral
  /-- The referrals that a sender started. -/
  referralsBySender : σ → Owner → Except StoreError (List Referral)
  /-- The referrals that wait in `installed` since before a time. -/
  installedBefore : σ → Timestamp → Except StoreError (List Referral)
  /-- Whether a domain itself is on the denylist. -/
  isFraudDomain : σ → String → Except StoreError Bool
  /-- Stores the registration of an owner in place of any other; a duplicate if
  another owner has its referral code. -/
  putRegistration : Registration → StoreM σ Unit
  /-- Confirms a registration and binds its address; a conflict if it is
  confirmed. -/
  confirmRegistration : Owner → Timestamp → StoreM σ Unit
  /-- Stores a registration that is confirmed from the start; a duplicate if the owner
  has one or the address is bound. -/
  createConfirmed : Registration → StoreM σ Unit
  /-- Starts a referral; a duplicate if the receiver has one. -/
  createReferral : Owner → Owner → Timestamp → StoreM σ Unit
  /-- Moves a referral to `installed`; a conflict from anywhere but the start. -/
  installReferral : Owner → Timestamp → StoreM σ Unit
  /-- Moves a referral to `confirmed` with its rewards; a conflict from anywhere but
  `installed`. -/
  confirmReferral : Owner → TokenAmount → TokenAmount → Timestamp → StoreM σ Unit
  /-- Puts a domain on the denylist. -/
  putFraudDomain : String → StoreM σ Unit
  /-- Whether a transaction can start in this state. -/
  canBegin : σ → Except StoreError Unit
  /-- Whether a transaction inside another one is undone on its own when it fails. -/
  undoesNested : Bool

namespace Store

variable {σ : Type}

/-- A write on its own: what it changed before it failed is undone. -/
def alone {α : Type} (op : StoreM σ α) : StoreM σ α := fun s =>
  match op s with
  | (.ok a, s') => (.ok a, s')
  | (.error e, _) => (.error e, s)

/-- How many registrations are confirmed. -/
def confirmedTotal [Store σ] (s : σ) : Except StoreError Nat :=
  (confirmedRegistrations s).map List.length

/-- How many registrations were confirmed on each day, oldest day first. -/
def confirmedByDay [Store σ] (s : σ) : Except StoreError (List DailyCount) :=
  (confirmedRegistrations s).map countByDay

/-- How many referrals of a sender are confirmed. -/
def confirmedReferralCount [Store σ] (s : σ) (sender : Owner) : Except StoreError Nat :=
  (referralsBySender s sender).map fun rs => rs.countP (·.status == .confirmed)

/-- The referrals of a sender, counted. -/
def referralStats [Store σ] (s : σ) (sender : Owner) : Except StoreError ReferralStats :=
  (referralsBySender s sender).map ReferralStats.ofList

end Store

end Onboarding
