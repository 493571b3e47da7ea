import Onboarding.Proofs.Owner
import Onboarding.Service.Confirmation
import Onboarding.Service.Faucet
import Onboarding.Service.Payout
/-!
# Memos — telling from a transfer what it was for

Every memo names its purpose and whom the transfer is for. The four purposes are spelt
so that none begins another, and so a memo tells both (`Purpose.memo_inj`).
-/

namespace Onboarding

/-- What a transfer may be for. -/
inductive Purpose where
  | stake
  | grant
  | sender
  | receiver
deriving DecidableEq, Repr

namespace Purpose

/-- How memos for a purpose begin. -/
def lead : Purpose → String
  | stake => "stake:"
  | grant => "testnet-stake:"
  | sender => "referral-sender:"
  | receiver => "referral-receiver:"

/-- The memo of a transfer for a purpose. -/
def memo (purpose : Purpose) (subject : String) : String := purpose.lead ++ subject

/-- A memo is for a purpose. -/
def Leads (purpose : Purpose) (memo : String) : Prop := purpose.lead.toList <+: memo.toList

instance (purpose : Purpose) (memo : String) : Decidable (purpose.Leads memo) :=
  inferInstanceAs (Decidable (_ <+: _))

theorem stakeMemo_eq (o : Owner) : Confirmation.stakeMemo o = stake.memo o.text := rfl

theorem faucetMemo_eq (a : WalletAddress) : Faucet.memo a = grant.memo a.text := rfl

/-- A memo is for one purpose. -/
theorem leads_memo {p q : Purpose} {s : String} : p.Leads (q.memo s) ↔ p = q := by
  cases p <;> cases q <;> simp [Leads, memo, lead]

/-- **A memo tells what it is for and whom.** -/
theorem memo_inj {p q : Purpose} {s t : String} : p.memo s = q.memo t ↔ p = q ∧ s = t := by
  constructor
  · intro h
    have hpq : p = q := by
      have hp : p.Leads (p.memo s) := leads_memo.2 rfl
      rw [h] at hp
      exact leads_memo.1 hp
    subst hpq
    exact ⟨rfl, (String.append_right_inj _).1 h⟩
  · rintro ⟨rfl, rfl⟩
    rfl

end Purpose

end Onboarding
