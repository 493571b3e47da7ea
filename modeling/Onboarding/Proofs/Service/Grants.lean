import Onboarding.Proofs.Service.Stakes
import Onboarding.Proofs.Service.Wallets
/-!
# Grants — how often the faucet pays an address

The faucet transfers a stake first. Only then it draws the codes of the registration that
is to remember the grant, and if that fails nothing remembers it: `granted_once_iff` says
that an address is granted at most once, and every grant is stored, exactly in the runs in
which no grant is lost this way.
-/

namespace Onboarding

open StoreView

/-- The transfers with the memo of a grant to an address. -/
def Books.grants (b : Books) (address : WalletAddress) : List Transfer :=
  b.transfers.filter (·.memo = Faucet.memo address)

/-- An address was granted at most once, and is registered and confirmed if it was. -/
structure Books.GrantedOnce (b : Books) (address : WalletAddress) : Prop where
  once : (b.grants address).length ≤ 1
  stored : b.grants address ≠ [] →
    ∃ r, b.contents.registration (.ofAddress address.text) = some r ∧ r.isConfirmed = true

/-! ## Once for each address -/

namespace Step

variable {settings : Settings} {now : Timestamp} {b b' : Books} {entry : Entry}
  {address : WalletAddress}

/-- Only a grant to an address is transferred with its memo. -/
theorem grants_eq (h : Step settings now b entry b')
    (hgranted : ∀ r, entry = .granted r → r.address ≠ address)
    (hlost : entry ≠ .grantLost address) : b'.grants address = b.grants address := by
  refine h.filter_transfers fun t ht => decide_eq_false fun hmemo => ?_
  rw [Purpose.faucetMemo_eq] at hmemo
  cases ht with
  | stake | lostStake =>
    rw [Settings.memo_stake, Purpose.memo_inj] at hmemo
    cases hmemo.1
  | reward side =>
    rw [Side.memo_transfer, Side.memo_eq, Purpose.memo_inj] at hmemo
    cases side <;> cases hmemo.1
  | grant =>
    rw [Faucet.memo_grant, Purpose.memo_inj, WalletAddress.text_inj] at hmemo
    exact hgranted _ rfl hmemo.2
  | lostGrant =>
    rw [Faucet.memo_grant, Purpose.memo_inj, WalletAddress.text_inj] at hmemo
    exact hlost (congrArg Entry.grantLost hmemo.2)

/-- **Every entry keeps an address granted once**, but for a grant to it that is lost. -/
theorem grantedOnce (h : Step settings now b entry b') (hb : b.GrantedOnce address)
    (hlost : entry ≠ .grantLost address) : b'.GrantedOnce address := by
  by_cases hgranted : ∃ r, entry = .granted r ∧ r.address = address
  -- a grant is for an owner without a registration, so it is the first
  · obtain ⟨r, rfl, rfl⟩ := hgranted
    cases h with
    | @granted _ stake _ owner_eq _ confirmed _ absent _ _ _ =>
      have hfirst : b.grants r.address = [] := by
        by_contra hne
        obtain ⟨q, hq, -⟩ := hb.stored hne
        rw [owner_eq] at absent
        cases absent.symm.trans hq
      have hgrants : (b.transfers ++ [Faucet.grant stake r.address]).filter
          (·.memo = Faucet.memo r.address) = [Faucet.grant stake r.address] := by
        rw [List.filter_append]
        change b.grants r.address ++ _ = _
        rw [hfirst]
        simp [Faucet.grant]
      refine ⟨?_, fun _ => ⟨r, ?_, ?_⟩⟩
      · exact Nat.le_of_eq (congrArg List.length hgrants)
      · rw [← owner_eq]
        exact Contents.registration_put_self _ _
      · rw [Registration.isConfirmed, confirmed]
        rfl
  · have hsame : b'.grants address = b.grants address :=
      h.grants_eq (fun r hr haddress => hgranted ⟨r, hr, haddress⟩) hlost
    refine ⟨hsame ▸ hb.once, fun hne => ?_⟩
    rw [hsame] at hne
    obtain ⟨r, hr, hconfirmed⟩ := hb.stored hne
    obtain ⟨r', hr', hgrows⟩ := h.evolves.registration hr
    rw [hgrows.kept hconfirmed] at hr'
    exact ⟨r, hr', hconfirmed⟩

/-- A grant that is lost is transferred, and nobody is registered for it. -/
theorem not_grantedOnce (h : Step settings now b (.grantLost address) b') :
    ¬ b'.GrantedOnce address := by
  cases h with
  | @grantLost _ stake _ absent _ =>
    intro hb
    have hmem : Faucet.grant stake address ∈
        (b.transfers ++ [Faucet.grant stake address]).filter (·.memo = Faucet.memo address) :=
      List.mem_filter.2 ⟨by simp, decide_eq_true rfl⟩
    obtain ⟨r, hr, -⟩ := hb.stored (List.ne_nil_of_mem hmem)
    cases absent.symm.trans hr

end Step

section Runs

variable {σ : Type} [Store σ] [LawfulStore σ] {settings : Settings} {w : World σ}

/-- A grant that is answered with an error after the stake was transferred, as the codes of
its registration could not be drawn. -/
structure World.LosesGrant (settings : Settings) (w : World σ) (a : Act)
    (address : WalletAddress) : Prop where
  call : a = .call (.grantTestnetStake address)
  refused : ∃ e, (grantTestnetStake settings address w).1 = .error e
  paid : ∃ stake, settings.testnetStake = some stake ∧
    (grantTestnetStake settings address w).2.ledger.transfers =
      w.ledger.transfers ++ [Faucet.grant stake address]
  undrawn : ∃ e p, Faucet.codes (w.store, w.random) = (.error e, p)

/-- A call loses a grant if it makes that entry. -/
theorem Made.losesGrant {c : Call} {address : WalletAddress}
    (h : Made settings w (c.after settings w) (.grantLost address))
    (hmakes : Makes settings w c (.grantLost address)) (hsafe : failing w.store = []) :
    w.LosesGrant settings (.call c) address := by
  obtain ⟨rfl, hanswer, hundrawn⟩ := hmakes.of_grantLost
  refine ⟨rfl, hanswer, ?_, hundrawn hsafe⟩
  have hstep := h.step
  generalize hb : (Call.after settings w (.grantTestnetStake address)).books = b' at hstep
  cases hstep with
  | @grantLost _ stake enabled _ _ => exact ⟨stake, enabled, congrArg Books.transfers hb⟩

/-- An act that loses a grant leaves the address granted and not registered. -/
theorem World.LosesGrant.not_grantedOnce {a : Act} {address : WalletAddress}
    (h : w.LosesGrant settings a address) (hw : w.Good) :
    ¬ (w.act settings a).books.GrantedOnce address := by
  obtain ⟨rfl, ⟨e, hanswer⟩, ⟨stake, -, hpaid⟩, -⟩ := h
  obtain ⟨entry, hgranting, hmade⟩ := @grantTestnetStake_made σ _ _ settings w hw address
  have hstep := hmade.step
  change ¬ (grantTestnetStake settings address w).2.books.GrantedOnce address
  -- of the entries that go with an error, only one transfers anything
  have hgrown : (grantTestnetStake settings address w).2.books.transfers ≠ w.books.transfers := by
    intro hsame
    exact List.cons_ne_nil _ _ (List.append_right_eq_self.1 (hpaid.symm.trans hsame))
  rw [hanswer] at hgranting
  generalize (grantTestnetStake settings address w).2.books = b' at hstep hgrown ⊢
  cases hgranting with
  | failed =>
    cases hstep
    exact absurd rfl hgrown
  | refused =>
    cases hstep
    exact absurd rfl hgrown
  | lost _ => exact hstep.not_grantedOnce

/-- An act that loses no grant keeps an address granted once. -/
theorem Event.grantedOnce {a : Act} {w' : World σ} {address : WalletAddress}
    (h : Event settings w a w') (hw' : w' = w.act settings a) (hsafe : failing w.store = [])
    (hkept : ¬ w.LosesGrant settings a address) (hw : w.books.GrantedOnce address) :
    w'.books.GrantedOnce address := by
  cases h with
  | @called c entry _ made makes =>
    subst hw'
    refine made.step.grantedOnce hw ?_
    rintro rfl
    exact hkept (made.losesGrant makes hsafe)
  | @advanced _ _ entry _ _ made done =>
    refine made.step.grantedOnce ⟨hw.once, hw.stored⟩ ?_
    rintro rfl
    rcases done with ⟨p, hp, -⟩ | ⟨hnothing, -⟩
    · cases hp
    · cases hnothing
  | idle _ => exact hw
  | @surrounded e =>
    have hcontents := LawfulStore.contents_failOn e.failing w.store
    refine ⟨hw.once, fun hne => ?_⟩
    obtain ⟨r, hr, hconfirmed⟩ := hw.stored hne
    refine ⟨r, ?_, hconfirmed⟩
    show (contents (failOn e.failing w.store)).registration _ = some r
    rw [hcontents]
    exact hr

/-- A run that loses no grant of an address keeps it granted once. -/
theorem World.grantedOnce_run {address : WalletAddress} (hw : w.Good)
    (hsafe : failing w.store = []) (hstart : w.books.GrantedOnce address) (acts : List Act)
    (hacts : ∀ a ∈ acts, a.Safe)
    (hkept : ∀ before a after, acts = before ++ a :: after →
      ¬ (w.run settings before).LosesGrant settings a address) :
    (w.run settings acts).books.GrantedOnce address := by
  induction acts using List.reverseRecOn with
  | nil => exact hstart
  | append_singleton acts a ih =>
    have hbefore := ih (fun a' ha' => hacts a' (List.mem_append_left _ ha'))
      fun before a' after hacts' => hkept before a' (after ++ [a]) (by rw [hacts']; simp)
    have hsafe' := failing_run settings hw hsafe acts
      fun a' ha' => hacts a' (List.mem_append_left _ ha')
    have hevent := act_event settings (good_run settings hw acts) a
    rw [run_concat]
    exact hevent.grantedOnce rfl hsafe' (hkept acts a [] rfl) hbefore

end Runs

/-- **An address is granted once, and every grant is stored, exactly if no grant is lost**:
in a run in which the store does not fail, whatever the chain and the random source do. -/
theorem granted_once_iff (kind : StoreKind) (settings : Settings) (clock : Timestamp)
    (acts : List Act) (hacts : ∀ a ∈ acts, a.Safe) (address : WalletAddress) :
    (∀ before after, acts = before ++ after →
        ((World.start clock : World kind.State).run settings before).books.GrantedOnce address) ↔
      ¬ ∃ before a after, acts = before ++ a :: after ∧
        ((World.start clock : World kind.State).run settings before).LosesGrant settings a
          address := by
  have hgood : (World.start clock : World kind.State).Good := World.good_start clock
  constructor
  · rintro h ⟨before, a, after, hacts', hloses⟩
    have honce := h (before ++ [a]) after (by rw [hacts']; simp)
    rw [World.run_concat] at honce
    exact hloses.not_grantedOnce (World.good_run settings hgood before) honce
  · intro hnone before after hacts'
    have hstart : (World.start clock : World kind.State).books.GrantedOnce address := by
      rw [World.books_start]
      exact ⟨Nat.zero_le _, fun hne => absurd rfl hne⟩
    refine World.grantedOnce_run hgood LawfulStore.failing_empty hstart before ?_ ?_
    · intro a ha
      exact hacts a (by rw [hacts']; exact List.mem_append_left _ ha)
    · rintro before' a after' rfl hloses
      exact hnone ⟨before', a, after' ++ after, by rw [hacts']; simp, hloses⟩

/-! ## A grant that is paid twice -/

namespace Lost

/-- The owner of a wallet that asks the faucet twice. -/
def owner : Owner := ⟨"91cf78fb3f0bcbb1b616ddad30220e1c"⟩

theorem ofAddress_wallet : Owner.ofAddress Shared.wallet.text = owner := by
  unfold Owner.ofAddress blake2b128 Blake2b.digest
  dsimp only
  rw [Blake2b.absorb]
  decide +kernel

/-- The faucet is open. -/
def settings : Settings := { testnetStake := some ⟨250⟩ }

/-- The first draw of the random source fails, and the wallet asks again. -/
def acts : List Act :=
  [.surround { clock := ⟨1700000000⟩, random := { script := [.unavailable] } },
    .call (.grantTestnetStake Shared.wallet),
    .call (.grantTestnetStake Shared.wallet)]

theorem safe_acts : ∀ a ∈ acts, a.Safe := by
  simp [acts, Act.Safe]

/-- Both calls were paid. -/
theorem grants_acts :
    ((World.start ⟨1700000000⟩ : World StoreKind.table.State).run settings acts).books.grants
      Shared.wallet = [Faucet.grant ⟨250⟩ Shared.wallet, Faucet.grant ⟨250⟩ Shared.wallet] := by
  unfold World.run acts
  simp only [List.foldl_cons, List.foldl_nil, World.act, Call.after, grantTestnetStake,
    ofAddress_wallet]
  decide +kernel

theorem not_grantedOnce :
    ¬ ((World.start ⟨1700000000⟩ : World StoreKind.table.State).run settings
      acts).books.GrantedOnce Shared.wallet := by
  intro h
  have honce := h.once
  rw [grants_acts] at honce
  exact absurd honce (by decide)

end Lost

/-- In a run that pays a wallet twice some grant was lost. -/
theorem granted_once_iff_lost :
    (∀ a ∈ Lost.acts, a.Safe) ∧
      ∃ before a after, Lost.acts = before ++ a :: after ∧
        ((World.start ⟨1700000000⟩ : World StoreKind.table.State).run Lost.settings
          before).LosesGrant Lost.settings a Shared.wallet := by
  refine ⟨Lost.safe_acts, ?_⟩
  by_contra hnone
  have honce := (granted_once_iff .table Lost.settings ⟨1700000000⟩ Lost.acts Lost.safe_acts
    Shared.wallet).2 hnone
  exact Lost.not_grantedOnce (honce Lost.acts [] (List.append_nil _).symm)

/-- One address can be paid twice: the first draw of a code fails behind the transfer, and
the next call finds nothing that remembers it. -/
theorem granted_twice :
    (∀ a ∈ Lost.acts, a.Safe) ∧
      ¬ ((World.start ⟨1700000000⟩ : World StoreKind.table.State).run Lost.settings
        Lost.acts).books.GrantedOnce Shared.wallet :=
  ⟨Lost.safe_acts, Lost.not_grantedOnce⟩

end Onboarding
