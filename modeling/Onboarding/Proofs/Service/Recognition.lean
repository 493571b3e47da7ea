import Onboarding.Proofs.Service.Grants
/-!
# Recognition — the wallets that the faucet does not pay again

Before it pays, the faucet looks for a registration that binds the wallet and for one of
the wallet's own owner. An owner is the same for a wallet in small and in capital letters,
but what binds a wallet is looked up as the wallet was written. `spares_iff_recognizes`
says that these two looks are all that keeps a confirmed wallet from being paid: one that
was confirmed by email, and is granted to in the other case, is not recognized.
-/

namespace Onboarding

open StoreView

namespace WalletAddress

/-- Two spellings of one wallet, which differ in nothing but the case of ASCII letters. -/
def SameWallet (a b : WalletAddress) : Prop := asciiLower a.text = asciiLower b.text

instance (a b : WalletAddress) : Decidable (a.SameWallet b) :=
  inferInstanceAs (Decidable (_ = _))

/-- A wallet has one owner, however it is spelt. -/
theorem SameWallet.ofAddress_eq {a b : WalletAddress} (h : a.SameWallet b) :
    Owner.ofAddress a.text = Owner.ofAddress b.text := by
  unfold Owner.ofAddress Owner.addressKey
  rw [h]

end WalletAddress

namespace Contents

variable {c : Contents} {address : WalletAddress}

/-- What the faucet finds of a wallet before it pays. -/
inductive Recognizes (c : Contents) (address : WalletAddress) : Prop
  | bound {q : Registration} (binds : c.Binds address q)
  | owned {r : Registration} (row : c.registration (.ofAddress address.text) = some r)

/-- A confirmed wallet is recognized in its own spelling, and in every spelling if it was
registered by the faucet. -/
theorem Confirmed.recognizes {q : Registration} (hq : c.Confirmed q)
    (hsame : q.address.SameWallet address)
    (hknown : q.address = address ∨ q.owner = .ofAddress q.address.text) :
    c.Recognizes address := by
  rcases hknown with haddress | howner
  · exact .bound ⟨hq.1, hq.2, haddress⟩
  · refine .owned (r := q) ?_
    rw [← hsame.ofAddress_eq, ← howner]
    exact hq.1

end Contents

section Outcomes

variable {σ : Type} [Store σ] {settings : Settings} {w : World σ} {address : WalletAddress}
  {stake : TokenAmount}

/-- A grant is refused as one that exists already, and nothing is transferred. -/
structure World.Spares (settings : Settings) (w : World σ) (address : WalletAddress) : Prop where
  answer : (grantTestnetStake settings address w).1 = .error .alreadyExists
  transfers : (grantTestnetStake settings address w).2.ledger.transfers = w.ledger.transfers

/-- A grant is transferred, or the chain refuses to. -/
inductive World.Attempts (settings : Settings) (w : World σ) (address : WalletAddress)
    (stake : TokenAmount) : Prop
  | paid (transfers : (grantTestnetStake settings address w).2.ledger.transfers =
      w.ledger.transfers ++ [Faucet.grant stake address])
  | refused {e : ChainError}
      (answer : (grantTestnetStake settings address w).1 = .error (.chain e))

/-- What is attempted is not spared. -/
theorem World.Attempts.not_spares (h : w.Attempts settings address stake) :
    ¬ w.Spares settings address := by
  intro hspares
  cases h with
  | paid transfers =>
    have hsame := transfers.symm.trans hspares.transfers
    exact List.cons_ne_nil _ _ (List.append_right_eq_self.1 hsame)
  | refused answer => cases answer.symm.trans hspares.answer

end Outcomes

theorem Enrollment.checkAddress_of_valid {τ : Type} {settings : Settings} {w : World τ}
    {address : WalletAddress}
    (hvalid : Bech32.validate address.text settings.addressPrefix = .ok ()) :
    Enrollment.checkAddress settings address w = (.ok (), w) := by
  unfold Enrollment.checkAddress
  rw [hvalid]
  rfl

section Calls

variable {σ : Type} [Store σ] [LawfulStore σ] {settings : Settings} {w : World σ}
  {address : WalletAddress} {stake : TokenAmount}

/-- A look at the wallet breaks only where the store is made to fail. -/
theorem not_broken_address (hsafe : failing w.store = [])
    (hvalid : Bech32.validate address.text settings.addressPrefix = .ok ()) :
    ¬ (.getByAddress ∈ failing w.store ∨ address.text = "") := by
  rintro (hbroken | hempty)
  · rw [hsafe] at hbroken
    cases hbroken
  · exact (Enrollment.isKey_of_validate hvalid).1 (Utf8.bytes_eq_nil.2 hempty)

/-- A wallet that is recognized is spared. -/
theorem spares_of_recognizes (hw : w.Good) (hsafe : failing w.store = [])
    (hstake : settings.testnetStake = some stake)
    (hvalid : Bech32.validate address.text settings.addressPrefix = .ok ())
    (h : (contents w.store).Recognizes address) : w.Spares settings address := by
  suffices hcall : grantTestnetStake settings address w = (.error .alreadyExists, w) by
    exact ⟨by rw [hcall], by rw [hcall]⟩
  have hsearch := LawfulStore.byAddress address hw.sound
  unfold grantTestnetStake
  rw [hstake]
  dsimp only
  rw [Computation.bind_of_ok (Enrollment.checkAddress_of_valid hvalid)]
  generalize hout : Store.byAddress w.store address = out at hsearch
  cases hsearch with
  | found _ => exact Computation.bind_of_error (Faucet.expectNone_of_found hout)
  | missing hunbound =>
    rw [Computation.bind_of_ok (Faucet.expectNone_of_missing hout)]
    -- what is not bound is recognized by its owner
    cases h with
    | bound binds => exact absurd binds (hunbound _)
    | owned row =>
      have hfound := LawfulStore.registration_eq_ok hw.sound hsafe row
      exact Computation.bind_of_error (Faucet.expectNone_of_found hfound)
  | broken hbroken => exact absurd hbroken (not_broken_address hsafe hvalid)

/-- A wallet that is not recognized is paid, if the chain takes the transfer. -/
theorem attempts_of_not_recognizes (hw : w.Good) (hsafe : failing w.store = [])
    (hstake : settings.testnetStake = some stake)
    (hvalid : Bech32.validate address.text settings.addressPrefix = .ok ())
    (h : ¬ (contents w.store).Recognizes address) : w.Attempts settings address stake := by
  have hbound := (LawfulStore.byAddress address hw.sound).eq_missing
    (fun _ hq => h (.bound hq)) (not_broken_address hsafe hvalid)
  have howned := (LawfulStore.registration (.ofAddress address.text) hw.sound).eq_missing
    (fun _ hr => h (.owned hr)) (LawfulStore.not_broken hsafe (Owner.isHash_ofAddress _))
  -- the call comes down to a transfer and what is stored behind it
  have hcall : ∃ rest : ServiceM σ Owner, (∀ v, (rest v).2.ledger = v.ledger) ∧
      grantTestnetStake settings address w =
        (ServiceM.pay (Faucet.grant stake address) >>= fun _ => rest) w := by
    unfold grantTestnetStake
    rw [hstake]
    dsimp only
    rw [Computation.bind_of_ok (Enrollment.checkAddress_of_valid hvalid),
      Computation.bind_of_ok (Faucet.expectNone_of_missing hbound),
      Computation.bind_of_ok (Faucet.expectNone_of_missing howned)]
    refine ⟨_, fun v => ?_, rfl⟩
    rw [Computation.bind_of_ok (ServiceM.now_apply v)]
    rcases ServiceM.tryTransaction_cases (Faucet.grantIn (.ofAddress address.text) address v.clock)
      v with ⟨_, s, g, -, htransaction⟩ | ⟨e, g, -, htransaction⟩
    · rw [Computation.bind_of_ok htransaction]
      rfl
    · rw [Computation.bind_of_ok htransaction]
      cases e with
      | store e => cases e <;> rfl
      | _ => rfl
  obtain ⟨rest, hrest, hcall⟩ := hcall
  rcases ServiceM.pay_cases (Faucet.grant stake address) hw.quiet with
    ⟨l, hpay, htransfers, -⟩ | ⟨e, l, -, hpay, -, -⟩
  · refine .paid ?_
    rw [hcall, Computation.bind_of_ok hpay, hrest]
    exact htransfers
  · refine .refused (e := e) ?_
    rw [hcall, Computation.bind_of_error hpay]

end Calls

/-- **The faucet spares a wallet exactly if it recognizes it**, after every run on every
store: a confirmed wallet is recognized in the spelling it was confirmed in, and in every
spelling if the faucet registered it. Every other wallet it sets out to pay. -/
theorem spares_iff_recognizes (kind : StoreKind) (settings : Settings) (clock : Timestamp)
    (acts : List Act) {address : WalletAddress} {stake : TokenAmount}
    (hsafe : failing ((World.start clock : World kind.State).run settings acts).store = [])
    (hstake : settings.testnetStake = some stake)
    (hvalid : Bech32.validate address.text settings.addressPrefix = .ok ()) :
    let w := (World.start clock : World kind.State).run settings acts
    (w.Spares settings address ↔ (contents w.store).Recognizes address) ∧
      (w.Spares settings address ∨ w.Attempts settings address stake) ∧
      ∀ q, (contents w.store).Confirmed q → q.address.SameWallet address →
        (q.address = address ∨ q.owner = .ofAddress q.address.text) →
        w.Spares settings address := by
  intro w
  have hw : w.Good := World.good_run settings (World.good_start clock) acts
  have hspares : (contents w.store).Recognizes address → w.Spares settings address :=
    spares_of_recognizes hw hsafe hstake hvalid
  have hattempts : ¬ (contents w.store).Recognizes address → w.Attempts settings address stake :=
    attempts_of_not_recognizes hw hsafe hstake hvalid
  refine ⟨⟨fun h => ?_, hspares⟩, ?_, fun q hq hsame hknown => ?_⟩
  · by_contra hnone
    exact (hattempts hnone).not_spares h
  · by_cases h : (contents w.store).Recognizes address
    · exact .inl (hspares h)
    · exact .inr (hattempts h)
  · exact hspares (hq.recognizes hsame hknown)

/-! ## A wallet that is written in capitals -/

namespace Capitals

/-- The capital spelling of a wallet. -/
def wallet : WalletAddress := ⟨"DECENTR1VG085RA5HW8MX5RRHEQF8FRUKS0XV4URQKUQGA"⟩

theorem sameWallet : Shared.wallet.SameWallet wallet := by decide +kernel

theorem ofAddress_wallet : Owner.ofAddress wallet.text = Lost.owner := by
  rw [← sameWallet.ofAddress_eq, Lost.ofAddress_wallet]

/-- The wallet is registered in small letters, and confirmed. -/
def acts : List Act :=
  [.call (.register ⟨"a@x.com", Shared.byteLength_first⟩ Shared.wallet none),
    .call (.confirm Shared.first "00000000000000000000000000000001")]

/-- The registration that the run leaves. -/
def row : Registration :=
  ⟨Shared.first, "a@x.com", Shared.wallet, "00000000000000000000000000000001", ⟨1700000000⟩,
    some ⟨1700000000⟩, "00000002", none⟩

/-- The world after the run. -/
def world : World StoreKind.table.State :=
  (World.start ⟨1700000000⟩ : World StoreKind.table.State).run Lost.settings acts

theorem confirmed_row : (contents world.store).Confirmed row := by
  unfold world World.run acts
  simp only [List.foldl_cons, List.foldl_nil, World.act, Call.after, register,
    Shared.ofEmail_first]
  unfold Contents.Confirmed Contents.Holds
  decide +kernel

theorem answer_eq : (grantTestnetStake Lost.settings wallet world).1 = .ok Lost.owner := by
  unfold world World.run acts
  simp only [List.foldl_cons, List.foldl_nil, World.act, Call.after, register, grantTestnetStake,
    Shared.ofEmail_first, ofAddress_wallet]
  decide +kernel

end Capitals

/-- The spelling that was confirmed is spared. -/
theorem spares_iff_recognizes_small :
    failing Capitals.world.store = [] ∧ Lost.settings.testnetStake = some ⟨250⟩ ∧
      Bech32.validate Shared.wallet.text Lost.settings.addressPrefix = .ok () ∧
      Capitals.world.Spares Lost.settings Shared.wallet := by
  have hsafe : failing Capitals.world.store = [] :=
    World.failing_run Lost.settings (World.good_start _) LawfulStore.failing_empty Capitals.acts
      (by simp [Capitals.acts, Act.Safe])
  have hvalid : Bech32.validate Shared.wallet.text Lost.settings.addressPrefix = .ok () := by
    decide +kernel
  refine ⟨hsafe, rfl, hvalid, ?_⟩
  exact (spares_iff_recognizes .table Lost.settings ⟨1700000000⟩ Capitals.acts hsafe rfl
    hvalid).2.2 Capitals.row Capitals.confirmed_row rfl (.inl rfl)

/-- A wallet that was confirmed by email is paid by the faucet when it is written in
capitals. -/
theorem not_spares_capitals :
    (contents Capitals.world.store).Confirmed Capitals.row ∧
      Capitals.row.address.SameWallet Capitals.wallet ∧
      ¬ Capitals.world.Spares Lost.settings Capitals.wallet := by
  refine ⟨Capitals.confirmed_row, Capitals.sameWallet, fun h => ?_⟩
  cases Capitals.answer_eq.symm.trans h.answer

end Onboarding
