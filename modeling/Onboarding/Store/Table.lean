import Onboarding.Domain
import Onboarding.Text.Quoted
/-!
# The table store — registrations and referrals in memory

Three tables without indexes: what is looked up by anything but its key is searched
for. The store counts its successful writes, and every operation can be made to fail,
which is how the behaviour under storage failures is tried out.
-/

namespace Onboarding

/-- A store in memory. -/
structure TableStore where
  registrations : Std.ExtTreeMap Owner Registration
  referrals : Std.ExtTreeMap Owner Referral
  fraudDomains : Std.ExtTreeMap String Unit
  /-- Operations that are made to fail. -/
  failing : List StoreOp
  /-- Writes that succeeded. -/
  writes : Nat

namespace TableStore

/-- A store that holds nothing. -/
def empty : TableStore := ⟨∅, ∅, ∅, [], 0⟩

/-- Fails if the operation is made to fail. -/
def guard (s : TableStore) (op : StoreOp) : Except StoreError Unit :=
  if op ∈ s.failing then .error (.backend ("injected failure in " ++ op.name)) else .ok ()

/-- The result of a read, unless the operation is made to fail. -/
def read {α : Type} (s : TableStore) (op : StoreOp) (result : Except StoreError α) :
    Except StoreError α :=
  match s.guard op with
  | .error e => .error e
  | .ok () => result

/-- A write that changes all it changes at once, and is counted if it succeeds. -/
def write (op : StoreOp) (change : TableStore → Except StoreError TableStore) :
    StoreM TableStore Unit := fun s =>
  match s.read op (change s) with
  | .error e => (.error e, s)
  | .ok s' => (.ok (), { s' with writes := s'.writes + 1 })

/-- Every registration, in the order of owners. -/
def allRegistrations (s : TableStore) : List Registration := s.registrations.toList.map (·.2)

/-- Every referral, in the order of receivers. -/
def allReferrals (s : TableStore) : List Referral := s.referrals.toList.map (·.2)

/-- The value of an option, or a missing key. -/
def orMissing {α : Type} (key : String) : Option α → Except StoreError α
  | some a => .ok a
  | none => .error (.notFound key)

/-- The registration of an owner. -/
def registration (s : TableStore) (o : Owner) : Except StoreError Registration :=
  orMissing ("request of " ++ o.text) s.registrations[o]?

/-- The referral of a receiver. -/
def referral (s : TableStore) (o : Owner) : Except StoreError Referral :=
  orMissing ("referral of " ++ o.text) s.referrals[o]?

/-- The store with a registration in place of its owner's. -/
def withRegistration (s : TableStore) (r : Registration) : TableStore :=
  { s with registrations := s.registrations.insert r.owner r }

/-- Whether an owner other than that of `r` has the referral code of `r`. -/
def codeTaken (s : TableStore) (r : Registration) : Bool :=
  s.allRegistrations.any fun q => q.owner ≠ r.owner && q.ownReferralCode = r.ownReferralCode

/-- Whether a registration is confirmed and bound to an address. -/
def isBoundTo (a : WalletAddress) (r : Registration) : Bool := r.isConfirmed && r.address = a

/-- Stores a registration unless its code is taken. -/
def putRegistration (r : Registration) (s : TableStore) : Except StoreError TableStore :=
  if s.codeTaken r then .error (.duplicate ("referral code " ++ r.ownReferralCode))
  else .ok (s.withRegistration r)

/-- Confirms the registration of an owner. -/
def confirmRegistration (o : Owner) (time : Timestamp) (s : TableStore) :
    Except StoreError TableStore :=
  match s.registration o with
  | .error e => .error e
  | .ok r =>
    if r.isConfirmed then .error (.conflict ("request of " ++ o.text ++ " already confirmed"))
    else .ok { s with
      registrations := s.registrations.insert o { r with confirmedAt := some time } }

/-- Stores a registration that is confirmed from the start. -/
def createConfirmed (r : Registration) (s : TableStore) : Except StoreError TableStore :=
  if !r.isConfirmed then
    .error (.conflict ("request of " ++ r.owner.text ++ " is not confirmed"))
  else if s.registrations.contains r.owner then
    .error (.duplicate ("request of " ++ r.owner.text))
  else if s.allRegistrations.any (isBoundTo r.address) then
    .error (.duplicate ("address " ++ r.address.text))
  else .ok (s.withRegistration r)

/-- Starts a referral. -/
def createReferral (sender receiver : Owner) (time : Timestamp) (s : TableStore) :
    Except StoreError TableStore :=
  if s.referrals.contains receiver then .error (.duplicate ("referral of " ++ receiver.text))
  else .ok { s with
    referrals := s.referrals.insert receiver (Referral.start sender receiver time) }

/-- Changes the referral of a receiver. -/
def changeReferral (receiver : Owner) (change : Referral → Except String Referral)
    (s : TableStore) : Except StoreError TableStore :=
  match s.referral receiver with
  | .error e => .error e
  | .ok r =>
    match change r with
    | .error reason => .error (.conflict reason)
    | .ok r' => .ok { s with referrals := s.referrals.insert receiver r' }

/-- Puts a domain on the denylist. A domain that no email can have is refused before
anything else. -/
def putFraudDomain (domain : String) : StoreM TableStore Unit := fun s =>
  match emailDomain? ("@" ++ domain) with
  | none => (.error (.backend ("invalid domain " ++ Quoted.text domain)), s)
  | some d =>
    write .putFraudDomain (fun s => .ok { s with fraudDomains := s.fraudDomains.insert d () }) s

instance : Store TableStore where
  empty := empty
  registration s o := s.read .getRequest (s.registration o)
  byAddress s a := s.read .getByAddress
    (orMissing ("address " ++ a.text) (s.allRegistrations.find? (isBoundTo a)))
  byReferralCode s c := s.read .getByReferralCode
    (orMissing ("referral code " ++ c) (s.allRegistrations.find? (·.ownReferralCode = c)))
  confirmedRegistrations s := s.read .iterConfirmed
    (.ok (s.allRegistrations.filter Registration.isConfirmed))
  referral s o := s.read .getReferral (s.referral o)
  referralsBySender s o := s.read .referralsBySender
    (.ok (s.allReferrals.filter (·.sender = o)))
  installedBefore s t := s.read .installedBefore
    (.ok (s.allReferrals.filter (Referral.installedBefore t)))
  isFraudDomain s d := s.read .isFraudDomain (.ok (s.fraudDomains.contains (asciiLower d)))
  putRegistration r := write .setRequest (putRegistration r)
  confirmRegistration o t := write .setConfirmed (confirmRegistration o t)
  createConfirmed r := write .createConfirmed (createConfirmed r)
  createReferral a b t := write .createReferral (createReferral a b t)
  installReferral o t := write .installReferral (changeReferral o (·.install t))
  confirmReferral o a b t := write .confirmReferral (changeReferral o (·.confirm a b t))
  putFraudDomain := putFraudDomain
  canBegin s := s.guard .transaction
  undoesNested := true

end TableStore

end Onboarding
