import Onboarding.Domain
import Onboarding.Schema.Binary
import Onboarding.Store.KeyTable
/-!
# The indexed store — records in ordered tables, with three indexes

Registrations and referrals are stored as binary records under their keys. Addresses
of confirmed registrations, own referral codes and pairs of sender and receiver are
indexed by further tables, which every write keeps up by hand. `layout` holds the
version of all this, which `reopen` checks.
-/

namespace Onboarding

/-- The tables of the store. -/
structure IndexedStore where
  /-- Owner to registration. -/
  registrations : KeyTable
  /-- Address to the owner whose confirmed registration it is bound to. -/
  addresses : KeyTable
  /-- Own referral code to owner. -/
  referralCodes : KeyTable
  /-- Receiver to referral. -/
  referrals : KeyTable
  /-- Sender and receiver, one behind the other, to nothing. -/
  referralsBySender : KeyTable
  /-- Domain to nothing. -/
  fraudDomains : KeyTable
  /-- The version of the layout. -/
  layout : KeyTable

/-- The name of a table. -/
inductive TableName where
  | registrations
  | addresses
  | referralCodes
  | referrals
  | referralsBySender
  | fraudDomains
  | layout
deriving DecidableEq, Repr

namespace TableName

/-- All tables. -/
def all : List TableName :=
  [registrations, addresses, referralCodes, referrals, referralsBySender, fraudDomains, layout]

/-- The text that names a table. -/
def text : TableName → String
  | registrations => "requests"
  | addresses => "addresses"
  | referralCodes => "referral_codes"
  | referrals => "referrals"
  | referralsBySender => "referrals_by_sender"
  | fraudDomains => "fraud_domains"
  | layout => "meta"

/-- The table that a text names. -/
def ofText? (s : String) : Option TableName := all.find? (·.text == s)

end TableName

/-- Why a store cannot be opened. -/
inductive OpenError where
  | backend (reason : String)
  | serialization (reason : String)
  | schemaMismatch (found expected : Nat)
  | file (reason : String)
deriving DecidableEq, Repr

namespace OpenError

/-- The wording of each reason. -/
def message : OpenError → String
  | backend reason => "LMDB error: " ++ reason
  | serialization reason => "serialization error: " ++ reason
  | schemaMismatch found expected =>
    s!"schema version {found} is not supported (expected {expected})"
  | file reason => "IO error: " ++ reason

/-- The failure of a call on the store that a reason amounts to. -/
def toStoreError : OpenError → StoreError
  | serialization reason => .serialization reason
  | e => .backend e.message

/-- The directory of the store cannot be made because a file has its name. -/
def blocked : OpenError := .file "File exists (os error 17)"

end OpenError

namespace IndexedStore

/-- Where the version of the layout is kept. -/
def versionKey : Key := Utf8.bytes "schema_version"

/-- The version of the layout. -/
def version : Nat := 1

/-- A store that holds nothing but the version of its layout. -/
def empty : IndexedStore :=
  ⟨∅, ∅, ∅, ∅, ∅, ∅, (∅ : KeyTable).insert versionKey (leBytes 4 version)⟩

/-- A table by name. -/
def table (s : IndexedStore) : TableName → KeyTable
  | .registrations => s.registrations
  | .addresses => s.addresses
  | .referralCodes => s.referralCodes
  | .referrals => s.referrals
  | .referralsBySender => s.referralsBySender
  | .fraudDomains => s.fraudDomains
  | .layout => s.layout

/-- The store with a table replaced. -/
def setTable (s : IndexedStore) (name : TableName) (t : KeyTable) : IndexedStore :=
  match name with
  | .registrations => { s with registrations := t }
  | .addresses => { s with addresses := t }
  | .referralCodes => { s with referralCodes := t }
  | .referrals => { s with referrals := t }
  | .referralsBySender => { s with referralsBySender := t }
  | .fraudDomains => { s with fraudDomains := t }
  | .layout => { s with layout := t }

/-- Checks the version of the layout when the store is opened again; a store without
one is given one. -/
def reopen (s : IndexedStore) : Except OpenError IndexedStore :=
  match s.layout[versionKey]? with
  | none => .ok { s with layout := s.layout.insert versionKey (leBytes 4 version) }
  | some bytes =>
    if bytes.length ≠ 4 then .error (.serialization "schema_version has unexpected length")
    else if leNat bytes ≠ version then .error (.schemaMismatch (leNat bytes) version)
    else .ok s

/-! ## Reading -/

/-- The record of some bytes. -/
def decode {α : Type} (schema : Schema α) (bytes : List UInt8) : Except StoreError α :=
  match schema.read bytes with
  | .ok a => .ok a
  | .error f => .error (.serialization f.message)

/-- The key of an owner. -/
def ownerKey (o : Owner) : Key := Utf8.bytes o.text

/-- The owner that an index names. -/
def ownerOfBytes (what : String) (bytes : List UInt8) : Except StoreError Owner :=
  match Utf8.text bytes with
  | .ok s => .ok ⟨s⟩
  | .error f => .error (.serialization (what ++ ": " ++ f.message))

/-- The bytes under a key, or a missing key. -/
def find (t : KeyTable) (k : Key) (what : String) : Except StoreError (List UInt8) :=
  match KeyTable.get t k with
  | .error e => .error e
  | .ok none => .error (.notFound what)
  | .ok (some v) => .ok v

/-- The registration of an owner. -/
def registration (s : IndexedStore) (o : Owner) : Except StoreError Registration := do
  decode Registration.schema (← find s.registrations (ownerKey o) ("request of " ++ o.text))

/-- The registration of the owner that an index has under a key. -/
def viaIndex (s : IndexedStore) (index : KeyTable) (k : Key) (what : String) :
    Except StoreError Registration := do
  let bytes ← find index k what
  s.registration (← ownerOfBytes "owner key" bytes)

/-- The registration that the address index has for an address. -/
def byAddress (s : IndexedStore) (a : WalletAddress) : Except StoreError Registration :=
  s.viaIndex s.addresses (Utf8.bytes a.text) ("address " ++ a.text)

/-- The registration that the code index has for a code. -/
def byReferralCode (s : IndexedStore) (code : String) : Except StoreError Registration :=
  s.viaIndex s.referralCodes (Utf8.bytes code) ("referral code " ++ code)

/-- Every value of a table, in the order of keys. -/
def decodeAll {α : Type} (schema : Schema α) (t : KeyTable) : Except StoreError (List α) :=
  t.toList.mapM fun e => decode schema e.2

/-- Every confirmed registration, in the order of owners. -/
def confirmedRegistrations (s : IndexedStore) : Except StoreError (List Registration) :=
  (decodeAll Registration.schema s.registrations).map (·.filter Registration.isConfirmed)

/-- The referral of a receiver. -/
def referral (s : IndexedStore) (o : Owner) : Except StoreError Referral := do
  decode Referral.schema (← find s.referrals (ownerKey o) ("referral of " ++ o.text))

/-- The key of a pair of sender and receiver. -/
def pairKey (sender receiver : Owner) : Key := ownerKey sender ++ ownerKey receiver

/-- The receiver of a pair whose sender has the length of a hash. -/
def pairReceiver (k : Key) : Except StoreError Owner :=
  if k.length < Owner.hexLength then .error .damaged
  else ownerOfBytes "referral index key" (k.drop Owner.hexLength)

/-- The referrals whose pairs start with a sender, in the order of receivers. -/
def referralsOf (s : IndexedStore) (sender : Owner) : Except StoreError (List Referral) := do
  let pairs ← KeyTable.withPrefix s.referralsBySender (ownerKey sender)
  let receivers ← pairs.mapM fun e => pairReceiver e.1
  receivers.mapM s.referral

/-- The referrals that wait in `installed` since before a time. -/
def installedBefore (s : IndexedStore) (t : Timestamp) : Except StoreError (List Referral) :=
  (decodeAll Referral.schema s.referrals).map (·.filter (Referral.installedBefore t))

/-- The key of a domain. -/
def domainKey (domain : String) : Key :=
  Utf8.bytes (asciiLower (String.ofList (trimDomain domain.toList)))

/-- Whether a domain is on the denylist. -/
def isFraudDomain (s : IndexedStore) (domain : String) : Except StoreError Bool :=
  (KeyTable.get s.fraudDomains (domainKey domain)).map Option.isSome

/-! ## Writing -/

/-- A change of one table. -/
def change (name : TableName) (f : KeyTable → Except StoreError KeyTable) :
    StoreM IndexedStore Unit := fun s =>
  match f (s.table name) with
  | .ok t => (.ok (), s.setTable name t)
  | .error e => (.error e, s)

/-- A value put under a key. -/
def put (name : TableName) (k : Key) (v : List UInt8) : StoreM IndexedStore Unit :=
  change name fun t => KeyTable.put t k v

/-- Something read from the state. -/
def ask {α : Type} (f : IndexedStore → Except StoreError α) : StoreM IndexedStore α :=
  fun s => (f s, s)

/-- Refuses a registration whose referral code the index has for another owner. -/
def checkCode (r : Registration) : StoreM IndexedStore Unit := do
  match ← ask fun s => KeyTable.get s.referralCodes (Utf8.bytes r.ownReferralCode) with
  | none => pure ()
  | some holder =>
    if holder ≠ ownerKey r.owner then
      throw (.duplicate ("referral code " ++ r.ownReferralCode))

/-- Takes the code of the registration that `r` replaces out of the index, unless
`r` has the same. -/
def dropOldCode (r : Registration) : StoreM IndexedStore Unit := do
  match ← ask fun s => Except.found? (s.registration r.owner) with
  | none => pure ()
  | some old =>
    if old.ownReferralCode ≠ r.ownReferralCode then
      change .referralCodes fun t => KeyTable.delete t (Utf8.bytes old.ownReferralCode)

/-- Stores a registration and its index entries. -/
def putRegistration (r : Registration) : StoreM IndexedStore Unit := do
  checkCode r
  dropOldCode r
  put .referralCodes (Utf8.bytes r.ownReferralCode) (ownerKey r.owner)
  if r.isConfirmed then
    put .addresses (Utf8.bytes r.address.text) (ownerKey r.owner)
  put .registrations (ownerKey r.owner) (Registration.schema.encode r)

/-- Confirms the registration of an owner. -/
def confirmRegistration (o : Owner) (time : Timestamp) : StoreM IndexedStore Unit := do
  let r ← ask (·.registration o)
  if r.isConfirmed then
    throw (.conflict ("request of " ++ o.text ++ " already confirmed"))
  putRegistration { r with confirmedAt := some time }

/-- Stores a registration that is confirmed from the start. -/
def createConfirmed (r : Registration) : StoreM IndexedStore Unit := do
  if !r.isConfirmed then
    throw (.conflict ("request of " ++ r.owner.text ++ " is not confirmed"))
  if (← ask fun s => KeyTable.get s.registrations (ownerKey r.owner)).isSome then
    throw (.duplicate ("request of " ++ r.owner.text))
  if (← ask fun s => KeyTable.get s.addresses (Utf8.bytes r.address.text)).isSome then
    throw (.duplicate ("address " ++ r.address.text))
  putRegistration r

/-- Starts a referral and indexes its pair. -/
def createReferral (sender receiver : Owner) (time : Timestamp) : StoreM IndexedStore Unit := do
  if (← ask fun s => KeyTable.get s.referrals (ownerKey receiver)).isSome then
    throw (.duplicate ("referral of " ++ receiver.text))
  put .referrals (ownerKey receiver) (Referral.schema.encode (.start sender receiver time))
  put .referralsBySender (pairKey sender receiver) []

/-- Changes the referral of a receiver. -/
def changeReferral (receiver : Owner) (f : Referral → Except String Referral) :
    StoreM IndexedStore Unit := do
  match f (← ask (·.referral receiver)) with
  | .error reason => throw (.conflict reason)
  | .ok r => put .referrals (ownerKey receiver) (Referral.schema.encode r)

instance : Store IndexedStore where
  empty := empty
  registration := registration
  byAddress := byAddress
  byReferralCode := byReferralCode
  confirmedRegistrations := confirmedRegistrations
  referral := referral
  referralsBySender := referralsOf
  installedBefore := installedBefore
  isFraudDomain := isFraudDomain
  putRegistration := putRegistration
  confirmRegistration := confirmRegistration
  createConfirmed := createConfirmed
  createReferral := createReferral
  installReferral o t := changeReferral o (·.install t)
  confirmReferral o a b t := changeReferral o (·.confirm a b t)
  putFraudDomain d := put .fraudDomains (domainKey d) []
  canBegin _ := .ok ()
  undoesNested := false

end IndexedStore

end Onboarding
