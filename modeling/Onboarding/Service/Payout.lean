import Onboarding.Service.World
/-!
# Payouts — rewarding a referral once both conditions hold

A referral is paid when its receiver has installed the app and is confirmed,
whichever comes second. The rewards are fixed in the transaction that moves the
referral to `confirmed`; the two transfers follow it and are not repeated, so a
referral is paid at most once.
-/

namespace Onboarding

/-- The rewards of one referral. -/
structure Payout where
  sender : Owner
  senderAddress : WalletAddress
  senderReward : TokenAmount
  receiver : Owner
  receiverAddress : WalletAddress
  receiverReward : TokenAmount
deriving DecidableEq, Repr, Inhabited

namespace Payout

variable {σ : Type} [Store σ]

/-- The memo of the sender's reward. -/
def senderMemo (receiver : Owner) : String := "referral-sender:" ++ receiver.text

/-- The memo of the receiver's reward. -/
def receiverMemo (receiver : Owner) : String := "referral-receiver:" ++ receiver.text

/-- The transfers of a payout, in their order. -/
def transfers (p : Payout) : List Transfer :=
  [⟨p.senderAddress, p.senderReward, senderMemo p.receiver⟩,
    ⟨p.receiverAddress, p.receiverReward, receiverMemo p.receiver⟩]

/-- The transaction that fixes the rewards of a referral, or finds that it is not yet,
or no longer, to be paid. -/
def plan (settings : Settings) (receiver : Owner) (now : Timestamp) :
    TransactionM σ (Option Payout) := do
  match ← TransactionM.find (Store.referral · receiver) with
  | none => return none
  | some referral =>
    if referral.status ≠ .installed then return none
    let receiving ← TransactionM.read (Store.registration · receiver)
    if !receiving.isConfirmed then return none
    let sending ← TransactionM.read (Store.registration · referral.sender)
    let before ← TransactionM.read (Store.confirmedReferralCount · referral.sender)
    let senderReward := settings.referral.senderReward before
    let receiverReward := settings.referral.receiverReward
    TransactionM.write (Store.confirmReferral receiver senderReward receiverReward now)
    return some
      { sender := referral.sender, senderAddress := sending.address, senderReward,
        receiver, receiverAddress := receiving.address, receiverReward }

/-- Tries a transfer and gives the reason if it fails. A transfer of nothing is not
made. -/
def tryPay (t : Transfer) : ServiceM σ (Option ChainError) := fun w =>
  if t.amount.isZero then (.ok none, w)
  else match w.pay t with
    | (.ok (), w') => (.ok none, w')
    | (.error .interrupted, w') => (.error (.chain .interrupted), w')
    | (.error e, w') => (.ok (some e), w')

/-- Tries every transfer and fails with the first failure. -/
def payAll : List Transfer → Option ChainError → ServiceM σ Unit
  | [], none => pure ()
  | [], some e => throw (.chain e)
  | t :: rest, failure => do
    let e ← tryPay t
    payAll rest (failure.or e)

end Payout

variable {σ : Type} [Store σ]

/-- Pays the referral of a receiver if it is ready. A transfer that fails is reported
after both were tried. -/
def advanceReferral (settings : Settings) (receiver : Owner) : ServiceM σ (Option Payout) := do
  let now ← ServiceM.now
  match ← ServiceM.transaction (Payout.plan settings receiver now) with
  | none => return none
  | some p =>
    Payout.payAll p.transfers none
    return some p

/-- Pays what waits to be paid in the background. What fails there is not answered
to anyone. -/
def settle (settings : Settings) (w : World σ) : World σ :=
  w.pending.foldl (fun w receiver => (advanceReferral settings receiver w).2)
    { w with pending := [] }

namespace Installation

/-- Moves the referral of a receiver to `installed`. -/
def record (receiver : Owner) : ServiceM σ Unit := do
  let now ← ServiceM.now
  match ← ServiceM.write (Store.installReferral receiver now) with
  | .ok () => pure ()
  | .error (.notFound _) => throw .notFound
  | .error (.conflict reason) => throw (.invalidTransition reason)
  | .error e => throw (.store e)

/-- Leaves the referral to be paid if the receiver is confirmed. -/
def notice (receiver : Owner) : ServiceM σ Unit := do
  match ← ServiceM.find (Store.registration · receiver) with
  | some r => if r.isConfirmed then ServiceM.later receiver
  | none => pure ()

end Installation

/-- Takes note that a receiver installed the app. -/
def markInstalled (receiver : Owner) : ServiceM σ Unit := do
  Installation.record receiver
  Installation.notice receiver

end Onboarding
