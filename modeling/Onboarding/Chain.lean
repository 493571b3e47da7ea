import Onboarding.Amount
import Onboarding.Owner
/-!
# The chain — transfers, and how they fail

Stakes and rewards are transfers to wallets, each with a memo that says what it is
for. A `Ledger` takes transfers and keeps those it accepted, oldest first; it can be
told to refuse all of them, those to some addresses, or some of the next ones.
-/

namespace Onboarding

/-- Why the chain did not do what it was asked. -/
inductive ChainError where
  | invalidAddress (reason : String)
  | broadcast (reason : String)
  | requestFailed (reason : String)
  | invalidResponse (reason : String)
  | unreachable (reason : String)
  /-- The call broke off without an answer. -/
  | interrupted
deriving DecidableEq, Repr

/-- The wording of each failure. -/
def ChainError.message : ChainError → String
  | invalidAddress reason => "invalid address: " ++ reason
  | broadcast reason => "transfer was not accepted by the chain: " ++ reason
  | requestFailed reason => "HTTP request to broadcaster failed: " ++ reason
  | invalidResponse reason => "invalid response from broadcaster: " ++ reason
  | unreachable reason => "broadcaster unreachable: " ++ reason
  | interrupted => "interrupted"

/-- A payment to a wallet. -/
structure Transfer where
  address : WalletAddress
  amount : TokenAmount
  /-- What the payment is for. -/
  memo : String
deriving DecidableEq, Repr, Inhabited

/-- A chain that keeps what it accepted. -/
structure Ledger where
  /-- Accepted transfers, oldest first. -/
  transfers : List Transfer := []
  /-- Every transfer is refused. -/
  refusesAll : Bool := false
  /-- Wallets that transfers are refused to. -/
  refused : List WalletAddress := []
  /-- Which of the next transfers are refused whatever their wallet; none behind the
  end. -/
  outages : List Bool := []
  /-- Refused transfers, oldest first. -/
  refusals : List Transfer := []
  isUnreachable : Bool := false
deriving DecidableEq, Repr, Inhabited

namespace Ledger

/-- The reason of a failure that was asked for. -/
def injected : String := "injected failure"

/-- Whether a transfer to a wallet is refused now. -/
def refuses (l : Ledger) (a : WalletAddress) : Bool :=
  l.refusesAll || a ∈ l.refused || l.outages.headD false

/-- Takes a transfer. -/
def send (t : Transfer) (l : Ledger) : Except ChainError Unit × Ledger :=
  if l.refuses t.address then
    (.error (.broadcast injected),
      { l with outages := l.outages.tail, refusals := l.refusals ++ [t] })
  else (.ok (), { l with outages := l.outages.tail, transfers := l.transfers ++ [t] })

/-- Whether the chain answers. -/
def ping (l : Ledger) : Except ChainError Unit :=
  if l.isUnreachable then .error (.unreachable injected) else .ok ()

/-- The transfers to a wallet, oldest first. -/
def transfersTo (l : Ledger) (a : WalletAddress) : List Transfer :=
  l.transfers.filter (·.address = a)

/-- **A transfer is kept exactly when it is accepted.** -/
theorem transfers_send (t : Transfer) (l : Ledger) :
    (send t l).2.transfers = if l.refuses t.address then l.transfers else l.transfers ++ [t] := by
  unfold send
  split <;> simp_all

end Ledger

end Onboarding
