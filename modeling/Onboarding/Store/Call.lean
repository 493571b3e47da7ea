import Onboarding.Domain
import Onboarding.Store.Transaction
/-!
# Store calls — everything a store can be asked, as data

A `StoreCall` is one call on a store, or a transaction made of calls, and
`StoreCall.run` makes it. Outside a transaction a call is one transaction of its own.
Replies that list records list them in the order of owners or receivers.
-/

namespace Onboarding

/-- How a transaction ends. -/
inductive Ending where
  /-- After all steps, whatever they answered. -/
  | commit
  /-- After all steps, by failing. -/
  | abort
  /-- By failing with the first step that fails. -/
  | failFast
deriving DecidableEq, Repr

/-- A call on a store. -/
inductive StoreCall where
  | registration (owner : Owner)
  | putRegistration (r : Registration)
  | confirmRegistration (owner : Owner) (time : Timestamp)
  | createConfirmed (r : Registration)
  | byAddress (address : WalletAddress)
  | byReferralCode (code : String)
  | confirmedRegistrations
  | confirmedTotal
  | confirmedByDay
  | createReferral (sender receiver : Owner) (time : Timestamp)
  | referral (receiver : Owner)
  | installReferral (receiver : Owner) (time : Timestamp)
  | confirmReferral (receiver : Owner) (senderReward receiverReward : TokenAmount)
      (time : Timestamp)
  | referralsBySender (sender : Owner)
  | installedBefore (cutoff : Timestamp)
  | confirmedReferralCount (sender : Owner)
  | referralStats (sender : Owner)
  | isFraudDomain (domain : String)
  | putFraudDomain (domain : String)
  | isFraudEmail (email : String)
  | transaction (steps : List StoreCall) (ending : Ending)

/-- What a call answers when it succeeds. -/
inductive StoreReply where
  | done
  | registration (r : Registration)
  | registrations (rs : List Registration)
  | referral (r : Referral)
  | referrals (rs : List Referral)
  | stats (s : ReferralStats)
  | days (ds : List DailyCount)
  | count (n : Nat)
  | flag (b : Bool)
deriving DecidableEq, Repr, Inhabited

/-- The result of a call, and of a transaction also the results of its steps. -/
inductive CallResult where
  | call (result : Except StoreError StoreReply)
  | transaction (result : Except StoreError Unit) (steps : List CallResult)

namespace CallResult

/-- Why the call failed, if it did. -/
def error? : CallResult → Option StoreError
  | .call (.error e) => some e
  | .transaction (.error e) _ => some e
  | _ => none

/-- Whether the call broke off without an answer. -/
def brokeOff (r : CallResult) : Bool := r.error? == some .damaged

end CallResult

/-- Registrations in the order of their owners. -/
def Registration.sort (rs : List Registration) : List Registration :=
  rs.mergeSort fun a b => (compare a.owner b.owner).isLE

/-- Referrals in the order of their receivers. -/
def Referral.sort (rs : List Referral) : List Referral :=
  rs.mergeSort fun a b => (compare a.receiver b.receiver).isLE

namespace StoreCall

variable {σ : Type} [Store σ]

/-- What a transaction that is asked to abort fails with. -/
def abortRequested : StoreError := .conflict "abort requested"

/-- What is made of a transaction's steps when the last of them has run. -/
def finish : Ending → Except StoreError Unit
  | .abort => .error abortRequested
  | _ => .ok ()

/-- Whether a step that answered `r` ends the transaction at once, and how. -/
def cutShort (ending : Ending) (r : CallResult) : Option StoreError :=
  if r.brokeOff then r.error?
  else match ending with
    | .failFast => r.error?
    | _ => none

/-- A read that succeeds with `wrap` of what was read. -/
def look {α : Type} (wrap : α → StoreReply) (f : σ → Except StoreError α) :
    StoreM σ StoreReply := fun s => ((f s).map wrap, s)

/-- A call that is no transaction. -/
def simple : StoreCall → StoreM σ StoreReply
  | .registration o => look .registration (Store.registration · o)
  | .putRegistration r => do Store.putRegistration r; return .done
  | .confirmRegistration o t => do Store.confirmRegistration o t; return .done
  | .createConfirmed r => do Store.createConfirmed r; return .done
  | .byAddress a => look .registration (Store.byAddress · a)
  | .byReferralCode c => look .registration (Store.byReferralCode · c)
  | .confirmedRegistrations =>
    look (fun rs => .registrations (Registration.sort rs)) Store.confirmedRegistrations
  | .confirmedTotal => look .count Store.confirmedTotal
  | .confirmedByDay => look .days Store.confirmedByDay
  | .createReferral a b t => do Store.createReferral a b t; return .done
  | .referral o => look .referral (Store.referral · o)
  | .installReferral o t => do Store.installReferral o t; return .done
  | .confirmReferral o a b t => do Store.confirmReferral o a b t; return .done
  | .referralsBySender o =>
    look (fun rs => .referrals (Referral.sort rs)) (Store.referralsBySender · o)
  | .installedBefore t =>
    look (fun rs => .referrals (Referral.sort rs)) (Store.installedBefore · t)
  | .confirmedReferralCount o => look .count (Store.confirmedReferralCount · o)
  | .referralStats o => look .stats (Store.referralStats · o)
  | .isFraudDomain d => look .flag (Store.isFraudDomain · d)
  | .putFraudDomain d => do Store.putFraudDomain d; return .done
  | .isFraudEmail e => look .flag (Store.isFraudEmail · e)
  | .transaction _ _ => pure .done

mutual

/-- A call inside a transaction. -/
def runNested : StoreCall → StateM σ CallResult
  | .transaction steps ending => fun s =>
    let body : Body StoreError σ (List CallResult) Unit := runSteps ending steps
    match Store.nestedTransaction id body (s, []) with
    | (r, (s', results)) => (.transaction r results, s')
  | call => fun s =>
    match simple call s with
    | (r, s') => (.call r, s')

/-- The steps of a transaction, whose results collect in the companion. -/
def runSteps (ending : Ending) : List StoreCall → Body StoreError σ (List CallResult) Unit
  | [] => fun p => (finish ending, p)
  | step :: rest => fun p =>
    match runNested step p.1 with
    | (r, s) =>
      match cutShort ending r with
      | some e => (.error e, (s, p.2 ++ [r]))
      | none => runSteps ending rest (s, p.2 ++ [r])

end

/-- A call outside any transaction. -/
def run : StoreCall → StateM σ CallResult
  | .transaction steps ending => fun s =>
    let body : Body StoreError σ (List CallResult) Unit := runSteps ending steps
    match Store.transaction id body (s, []) with
    | (r, (s', results)) => (.transaction r results, s')
  | call => fun s =>
    match Store.alone (simple call) s with
    | (r, s') => (.call r, s')

/-- Calls one after the other, each on its own. -/
def runAll : List StoreCall → StateM σ (List CallResult)
  | [] => pure []
  | c :: r => do return (← run c) :: (← runAll r)

end StoreCall

end Onboarding
