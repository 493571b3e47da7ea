import Onboarding.Schema
import Onboarding.Amount
import Onboarding.Timestamp
import Onboarding.Owner
/-!
# Schemas of the basic types — owners, wallets, amounts and times

Each is stored and sent as the word or text it wraps.
-/

namespace Onboarding

/-- An owner is stored as its text. -/
def Owner.schema : Schema Owner :=
  .via .text Owner.mk Owner.text (fun _ => rfl) (fun _ => rfl)

/-- An address is stored as its text. -/
def WalletAddress.schema : Schema WalletAddress :=
  .via .text WalletAddress.mk WalletAddress.text (fun _ => rfl) (fun _ => rfl)

/-- An amount is stored in units. -/
def TokenAmount.schema : Schema TokenAmount :=
  .via .word TokenAmount.mk TokenAmount.units (fun _ => rfl) (fun _ => rfl)

/-- A time is stored in seconds. -/
def Timestamp.schema : Schema Timestamp :=
  .via .word Timestamp.mk Timestamp.seconds (fun _ => rfl) (fun _ => rfl)

end Onboarding
