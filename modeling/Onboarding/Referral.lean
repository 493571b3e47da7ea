import Onboarding.Schema.Basic
/-!
# Referrals — who invited whom, and how far the invitation came

A referral starts as registered, becomes installed when the receiver installs the
app, and confirmed when it is paid. It only ever moves to the next of these three.
-/

namespace Onboarding

/-- How far a referral came. -/
inductive ReferralStatus where
  /-- The receiver registered with the sender's code. -/
  | registered
  /-- The receiver installed the app. -/
  | installed
  /-- The receiver is confirmed and the rewards are fixed. -/
  | confirmed
deriving DecidableEq, Repr, Inhabited

namespace ReferralStatus

/-- The status that may follow. -/
def next? : ReferralStatus → Option ReferralStatus
  | registered => some installed
  | installed => some confirmed
  | confirmed => none

/-- Whether a referral may move from `s` to `t`. -/
def canMoveTo (s t : ReferralStatus) : Bool := s.next? == some t

/-- The name of a status. -/
def name : ReferralStatus → String
  | registered => "registered"
  | installed => "installed"
  | confirmed => "confirmed"

/-- The status of a name. -/
def ofName? : String → Option ReferralStatus
  | "registered" => some registered
  | "installed" => some installed
  | "confirmed" => some confirmed
  | _ => none

/-- The wording for a text that names no status. -/
def unknownMessage (s : String) : String := "unknown referral status: " ++ s

/-- The place of a status in the order of progress. -/
def toFin : ReferralStatus → Fin 3
  | registered => 0
  | installed => 1
  | confirmed => 2

/-- The status at a place. -/
def ofFin : Fin 3 → ReferralStatus
  | 0 => registered
  | 1 => installed
  | 2 => confirmed

/-- Statuses are stored by place and sent by name. -/
def schema : Schema ReferralStatus :=
  .via (.choice ["registered", "installed", "confirmed"]) ofFin toFin
    (fun i => by revert i; decide) (fun s => by cases s <;> rfl)

end ReferralStatus

/-- One referral. A receiver is referred at most once. -/
structure Referral where
  sender : Owner
  receiver : Owner
  status : ReferralStatus
  registeredAt : Timestamp
  installedAt : Option Timestamp
  confirmedAt : Option Timestamp
  /-- What the sender is paid, once that is fixed. -/
  senderReward : Option TokenAmount
  /-- What the receiver is paid, once that is fixed. -/
  receiverReward : Option TokenAmount
deriving DecidableEq, Repr, Inhabited

namespace Referral

/-- A referral at its start. -/
def start (sender receiver : Owner) (time : Timestamp) : Referral :=
  ⟨sender, receiver, .registered, time, none, none, none, none⟩

/-- The wording for a move that is not allowed. -/
def moveMessage (r : Referral) (target : ReferralStatus) : String :=
  s!"referral of {r.receiver.text} cannot move from {r.status.name} to {target.name}"

/-- The referral after an installation; refused unless it is registered. -/
def install (r : Referral) (time : Timestamp) : Except String Referral :=
  if r.status.canMoveTo .installed then
    .ok { r with status := .installed, installedAt := some time }
  else .error (r.moveMessage .installed)

/-- The referral with its rewards fixed; refused unless it is installed. -/
def confirm (r : Referral) (senderReward receiverReward : TokenAmount) (time : Timestamp) :
    Except String Referral :=
  if r.status.canMoveTo .confirmed then
    .ok { r with
      status := .confirmed
      confirmedAt := some time
      senderReward := some senderReward
      receiverReward := some receiverReward }
  else .error (r.moveMessage .confirmed)

/-- Whether the referral waits in `installed` since before `cutoff`. -/
def installedBefore (cutoff : Timestamp) (r : Referral) : Bool :=
  r.status == .installed && r.installedAt.any (·.before cutoff)

/-- The stored and sent layout. -/
def schema : Schema Referral :=
  .via
    (.record (.required "sender" Owner.schema
      (.required "receiver" Owner.schema
      (.required "status" ReferralStatus.schema
      (.required "registered_at" Timestamp.schema
      (.required "installed_at" (.option Timestamp.schema)
      (.required "confirmed_at" (.option Timestamp.schema)
      (.required "sender_reward" (.option TokenAmount.schema)
      (.required "receiver_reward" (.option TokenAmount.schema) .done)))))))))
    (fun (a, b, c, d, e, f, g, h, ()) => ⟨a, b, c, d, e, f, g, h⟩)
    (fun r => (r.sender, r.receiver, r.status, r.registeredAt, r.installedAt, r.confirmedAt,
      r.senderReward, r.receiverReward, ()))
    (fun _ => rfl) (fun _ => rfl)

end Referral

/-- The referrals of one sender, counted by status, and what they earned. -/
structure ReferralStats where
  registered : Nat
  installed : Nat
  confirmed : Nat
  reward : TokenAmount
deriving DecidableEq, Repr, Inhabited

namespace ReferralStats

/-- The counts of a list of referrals. The rewards add up to at most the largest
amount. -/
def ofList (rs : List Referral) : ReferralStats where
  registered := rs.countP (·.status == .registered)
  installed := rs.countP (·.status == .installed)
  confirmed := rs.countP (·.status == .confirmed)
  reward := (rs.filterMap (·.senderReward)).foldl TokenAmount.saturatingAdd .zero

/-- The stored and sent layout. -/
def schema : Schema ReferralStats :=
  .via
    (.record (.required "registered" .count
      (.required "installed" .count
      (.required "confirmed" .count
      (.required "reward" TokenAmount.schema .done)))))
    (fun (a, b, c, d, ()) => ⟨a, b, c, d⟩)
    (fun s => (s.registered, s.installed, s.confirmed, s.reward, ()))
    (fun _ => rfl) (fun _ => rfl)

end ReferralStats

end Onboarding
