import Onboarding.Schema.Basic
import Std.Data.ExtTreeMap
/-!
# Registrations — one owner's wallet, the code that confirms it, and the counts

A registration binds an owner to a wallet address. It is confirmed at most once,
which is what `confirmedAt` records. `countByDay` groups confirmed registrations by
the day they were confirmed on.
-/

namespace Onboarding

/-- The registration of an owner. -/
structure Registration where
  owner : Owner
  /-- The email to write to. Owners, not emails, are looked up. -/
  email : String
  address : WalletAddress
  /-- The code that was mailed to the owner. -/
  code : String
  createdAt : Timestamp
  /-- Set once, when the code is confirmed. -/
  confirmedAt : Option Timestamp
  /-- The code this owner hands out to invite others. -/
  ownReferralCode : String
  /-- The code of the inviter. -/
  referralCode : Option String
deriving DecidableEq, Repr, Inhabited

namespace Registration

/-- Whether the code was confirmed. -/
def isConfirmed (r : Registration) : Bool := r.confirmedAt.isSome

/-- The stored and sent layout. -/
def schema : Schema Registration :=
  .via
    (.record (.required "owner" Owner.schema
      (.required "email" .text
      (.required "address" WalletAddress.schema
      (.required "code" .text
      (.required "created_at" Timestamp.schema
      (.required "confirmed_at" (.option Timestamp.schema)
      (.required "own_referral_code" .text
      (.required "referral_code" (.option .text) .done)))))))))
    (fun (a, b, c, d, e, f, g, h, ()) => ⟨a, b, c, d, e, f, g, h⟩)
    (fun r => (r.owner, r.email, r.address, r.code, r.createdAt, r.confirmedAt,
      r.ownReferralCode, r.referralCode, ()))
    (fun _ => rfl) (fun _ => rfl)

end Registration

/-- The number of registrations confirmed on one day. -/
structure DailyCount where
  /-- The first second of the day. -/
  day : Timestamp
  count : Nat
deriving DecidableEq, Repr, Inhabited

/-- The stored and sent layout. -/
def DailyCount.schema : Schema DailyCount :=
  .via (.record (.required "day" Timestamp.schema (.required "count" .count .done)))
    (fun (a, b, ()) => ⟨a, b⟩) (fun d => (d.day, d.count, ())) (fun _ => rfl) (fun _ => rfl)

/-- Confirmed registrations overall and by day. -/
structure RegistrationStats where
  total : Nat
  byDay : List DailyCount
deriving DecidableEq, Repr, Inhabited

/-- The stored and sent layout. -/
def RegistrationStats.schema : Schema RegistrationStats :=
  .via
    (.record (.required "total" .count
      (.required "by_day" (.list DailyCount.schema) .done)))
    (fun (a, b, ()) => ⟨a, b⟩) (fun s => (s.total, s.byDay, ())) (fun _ => rfl) (fun _ => rfl)

/-- How many times each item of a list occurs. -/
def tally {κ : Type} [Ord κ] [Std.TransOrd κ] (items : List κ) : Std.ExtTreeMap κ Nat :=
  items.foldl (fun m k => m.alter k fun n => some (n.getD 0 + 1)) ∅

/-- Confirmed registrations grouped by the day of confirmation, oldest day first. -/
def countByDay (rs : List Registration) : List DailyCount :=
  let days := rs.filterMap fun r => r.confirmedAt.map Timestamp.startOfDay
  (tally days).toList.map fun (day, n) => ⟨day, n⟩

end Onboarding
