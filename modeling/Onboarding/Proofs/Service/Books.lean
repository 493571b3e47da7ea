import Onboarding.Proofs.Store.Lawful
import Onboarding.Service.Confirmation
import Onboarding.Service.Faucet
import Onboarding.Service.Payout
/-!
# Books — what the calls on the service write, one entry each

`Books` is what a world shows of itself to everyone who asks about whole runs: the
contents of its store, the transfers, the mails and the referrals that wait. A call
makes one entry in the books, and `Step` lists the entries there are, each with all
that was checked before it was made and all that it changes. Every claim about a run is
proved over these steps; that the calls make no others is proved call by call.
-/

namespace Onboarding

/-- What a world shows of itself. -/
structure Books where
  contents : Contents
  /-- Accepted transfers, oldest first. -/
  transfers : List Transfer
  /-- Refused transfers, oldest first. -/
  refusals : List Transfer
  /-- Mails sent, oldest first. -/
  outbox : List Mail
  /-- Receivers whose referrals wait to be advanced. -/
  pending : List Owner
  /-- Operations of the store that are made to fail. -/
  failing : List StoreOp

/-- What a call writes into the books. -/
inductive Entry where
  | nothing
  /-- A first registration. -/
  | enrolled (r : Registration)
  /-- A registration renewed. -/
  | renewed (r : Registration)
  /-- An inviter given to a registration. -/
  | tracked (r : Registration)
  /-- A stake that was not accepted. -/
  | stakeRefused (r : Registration)
  /-- A stake whose confirmation could not be stored. -/
  | stakeLost (r : Registration)
  /-- A registration confirmed, as it was before. -/
  | confirmed (r : Registration)
  /-- A referral moved to `installed`, as it was before. -/
  | installed (f : Referral)
  | paid (p : Payout)
  /-- A grant that was not accepted. -/
  | grantRefused (address : WalletAddress)
  /-- A grant that could not be stored. -/
  | grantLost (address : WalletAddress)
  | granted (r : Registration)

/-- Whom a code invites a receiver by: without a code by nobody, otherwise by the owner
of the code, who is someone else, and only if nobody did so before. -/
inductive Invited (c : Contents) (receiver : Owner) : Option String → Option Owner → Prop
  | alone : Invited c receiver none none
  | invited {code : String} {q : Registration} (code_eq : c.HasCode code q)
      (other : q.owner ≠ receiver) (first : c.referral receiver = none) :
    Invited c receiver (some code) (some q.owner)

/-- The contents with a referral for whom an inviter was found. -/
def Contents.invite (c : Contents) (receiver : Owner) (now : Timestamp) :
    Option Owner → Contents
  | none => c
  | some sender => c.refer (.start sender receiver now)

/-- Putting a registration and starting a referral do not get into each other's way. -/
theorem Contents.put_invite (c : Contents) (r : Registration) (receiver : Owner) (now : Timestamp)
    (sender? : Option Owner) :
    (c.invite receiver now sender?).put r = (c.put r).invite receiver now sender? := by
  cases sender? <;> rfl

theorem Contents.registration_invite (c : Contents) (receiver : Owner) (now : Timestamp)
    (sender? : Option Owner) :
    (c.invite receiver now sender?).registration = c.registration := by
  cases sender? <;> rfl

/-- Whoever invites someone else was registered before. -/
theorem Invited.of_put {c : Contents} {r : Registration} {code? : Option String}
    {sender? : Option Owner} (h : Invited (c.put r) r.owner code? sender?) :
    Invited c r.owner code? sender? := by
  cases h with
  | alone => exact .alone
  | invited hcode other first =>
    rcases Contents.holds_put.1 hcode.1 with rfl | ⟨-, hq⟩
    · exact absurd rfl other
    · exact .invited ⟨hq, hcode.2⟩ other first

/-- What becomes of transfers that are due: one of nothing is not made, and every other
one is accepted or refused. -/
inductive Sent : List Transfer → List Transfer → List Transfer → Prop
  | nil : Sent [] [] []
  | skipped {t : Transfer} {due accepted refused : List Transfer} (h : t.amount.isZero = true) :
    Sent due accepted refused → Sent (t :: due) accepted refused
  | accepted {t : Transfer} {due accepted refused : List Transfer} (h : t.amount.isZero = false) :
    Sent due accepted refused → Sent (t :: due) (t :: accepted) refused
  | refused {t : Transfer} {due accepted refused : List Transfer} (h : t.amount.isZero = false) :
    Sent due accepted refused → Sent (t :: due) accepted (t :: refused)

/-- What is accepted was due. -/
theorem Sent.accepted_subset {due accepted refused : List Transfer}
    (h : Sent due accepted refused) : accepted ⊆ due := by
  induction h with
  | nil => exact List.Subset.refl []
  | skipped _ _ ih | refused _ _ ih => exact List.subset_cons_of_subset _ ih
  | accepted _ _ ih => exact List.cons_subset_cons _ ih

/-- What is refused was due. -/
theorem Sent.refused_subset {due accepted refused : List Transfer}
    (h : Sent due accepted refused) : refused ⊆ due := by
  induction h with
  | nil => exact List.Subset.refl []
  | skipped _ _ ih | accepted _ _ ih => exact List.subset_cons_of_subset _ ih
  | refused _ _ ih => exact List.cons_subset_cons _ ih

/-- How many referrals of a sender are confirmed. -/
def Contents.ConfirmedCount (c : Contents) (sender : Owner) (n : Nat) : Prop :=
  ∃ fs : List Referral, fs.Nodup ∧ (∀ f, f ∈ fs ↔ c.Refers f ∧ f.sender = sender) ∧
    fs.countP (·.status == .confirmed) = n

/-- The transfer of a stake. -/
def Settings.stake (settings : Settings) (r : Registration) : Transfer :=
  ⟨r.address, settings.initialStake, Confirmation.stakeMemo r.owner⟩

/-- The transfer of a grant. -/
def Faucet.grant (stake : TokenAmount) (address : WalletAddress) : Transfer :=
  ⟨address, stake, Faucet.memo address⟩

/-- **The entries there are**: what was so before, and what is so afterwards. -/
inductive Step (settings : Settings) (now : Timestamp) (b : Books) : Entry → Books → Prop
  | nothing : Step settings now b .nothing b
  | enrolled {r : Registration} {sender? : Option Owner}
      (owner_eq : r.owner = .ofEmail r.email)
      (fresh : r.confirmedAt = none)
      (time : r.createdAt = now)
      (absent : b.contents.registration r.owner = none)
      (unbound : ∀ q, ¬ b.contents.Binds r.address q)
      (free : b.contents.CodeFree r)
      (storable : r.Storable)
      (invited : Invited b.contents r.owner r.referralCode sender?) :
    Step settings now b (.enrolled r) { b with
      contents := (b.contents.put r).invite r.owner now sender?
      outbox := b.outbox ++ [.verification r.email r.code] }
  | renewed {r : Registration} {code? : Option String} {sender? : Option Owner}
      (held : b.contents.Holds r)
      (fresh : r.confirmedAt = none)
      (waited : settings.throttleSeconds.toNat ≤ r.createdAt.elapsed now)
      (first : code? = none ∨ r.referralCode = none)
      (invited : Invited b.contents r.owner code? sender?) :
    Step settings now b
      (.renewed { r with referralCode := code?.or r.referralCode, createdAt := now })
      { b with
        contents := (b.contents.put
          { r with referralCode := code?.or r.referralCode, createdAt := now }).invite
            r.owner now sender?
        outbox := b.outbox ++ [.verification r.email r.code] }
  | tracked {r : Registration} {code : String} {sender? : Option Owner}
      (held : b.contents.Holds r)
      (fresh : r.confirmedAt = none)
      (first : r.referralCode = none)
      (invited : Invited b.contents r.owner (some code) sender?) :
    Step settings now b (.tracked { r with referralCode := some code }) { b with
      contents := (b.contents.put { r with referralCode := some code }).invite
        r.owner now sender? }
  | stakeRefused {r : Registration} (held : b.contents.Holds r) (fresh : r.confirmedAt = none) :
    Step settings now b (.stakeRefused r) { b with
      refusals := b.refusals ++ [settings.stake r] }
  | stakeLost {r : Registration} (held : b.contents.Holds r) (fresh : r.confirmedAt = none)
      (broken : .setConfirmed ∈ b.failing) :
    Step settings now b (.stakeLost r) { b with
      transfers := b.transfers ++ [settings.stake r] }
  | confirmed {r : Registration} (held : b.contents.Holds r) (fresh : r.confirmedAt = none) :
    Step settings now b (.confirmed r) { b with
      contents := b.contents.put { r with confirmedAt := some now }
      transfers := b.transfers ++ [settings.stake r]
      outbox := b.outbox ++ [.welcome r.email]
      pending := b.pending ++ [r.owner] }
  /-- Who waits for the payout is found by reading the store once more. -/
  | installed {f : Referral} {waiting : List Owner}
      (held : b.contents.Refers f)
      (start : f.status = .registered)
      (noticed : waiting = [f.receiver] ∨ waiting = [] ∧ (.getRequest ∈ b.failing ∨
        ∀ r, b.contents.registration f.receiver = some r → r.confirmedAt = none)) :
    Step settings now b (.installed f) { b with
      contents := b.contents.refer { f with status := .installed, installedAt := some now }
      pending := b.pending ++ waiting }
  | paid {f : Referral} {receiving sending : Registration} {n : Nat}
      {accepted refused : List Transfer} {p : Payout}
      (held : b.contents.Refers f)
      (installed : f.status = .installed)
      (receiver : b.contents.registration f.receiver = some receiving)
      (ready : receiving.isConfirmed = true)
      (sender : b.contents.registration f.sender = some sending)
      (earlier : b.contents.ConfirmedCount f.sender n)
      (payout : p = ⟨f.sender, sending.address, settings.referral.senderReward n,
        f.receiver, receiving.address, settings.referral.receiverReward⟩)
      (sent : Sent p.transfers accepted refused) :
    Step settings now b (.paid p) { b with
      contents := b.contents.refer { f with
        status := .confirmed
        confirmedAt := some now
        senderReward := some p.senderReward
        receiverReward := some p.receiverReward }
      transfers := b.transfers ++ accepted
      refusals := b.refusals ++ refused }
  | grantRefused {address : WalletAddress} {stake : TokenAmount}
      (enabled : settings.testnetStake = some stake)
      (absent : b.contents.registration (.ofAddress address.text) = none)
      (unbound : ∀ q, ¬ b.contents.Binds address q) :
    Step settings now b (.grantRefused address) { b with
      refusals := b.refusals ++ [Faucet.grant stake address] }
  | grantLost {address : WalletAddress} {stake : TokenAmount}
      (enabled : settings.testnetStake = some stake)
      (absent : b.contents.registration (.ofAddress address.text) = none)
      (unbound : ∀ q, ¬ b.contents.Binds address q) :
    Step settings now b (.grantLost address) { b with
      transfers := b.transfers ++ [Faucet.grant stake address] }
  | granted {r : Registration} {stake : TokenAmount}
      (enabled : settings.testnetStake = some stake)
      (owner_eq : r.owner = .ofAddress r.address.text)
      (silent : r.email = "")
      (confirmed : r.confirmedAt = some now)
      (uninvited : r.referralCode = none)
      (absent : b.contents.registration r.owner = none)
      (unbound : ∀ q, ¬ b.contents.Binds r.address q)
      (free : b.contents.CodeFree r)
      (storable : r.Storable) :
    Step settings now b (.granted r) { b with
      contents := b.contents.put r
      transfers := b.transfers ++ [Faucet.grant stake r.address] }

end Onboarding
