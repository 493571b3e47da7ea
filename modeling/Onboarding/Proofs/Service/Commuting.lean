import Onboarding.Proofs.Service.Installation
import Onboarding.Proofs.Service.Scope
import Onboarding.Proofs.Store.Alike
import Onboarding.Proofs.Store.Disjoint
/-!
# Commuting — a confirmation and an installation in either order

A referral is paid once its receiver is confirmed and has installed the app, and it is the
later of the two calls that leaves it to be paid. So the two orders pass through different
states: where the confirmation comes first, its payout finds nothing to pay, and it is that
of the installation that pays. They end in one world all the same (`Commute`), and each call
answers the same in both.

A confirmation that is turned away reads one registration, and no installation and no payout
changes that. One whose stake is refused changes the ledger, which an installation does not
look at. One that goes through is stored in either order (`StoreKind.confirm_install`), and
then the two orders advance the referral in the very same world: what becomes of the rewards
does not matter.
-/

namespace Onboarding

open StoreView

/-! ## Calls with their payouts, in either order -/

/-- A call with the payouts that it leaves waiting. -/
def ServiceM.settled {σ α : Type} [Store σ] (settings : Settings) (x : ServiceM σ α) :
    ServiceM σ α :=
  fun w => ((x { w with pending := [] }).1, w.settled settings fun v => (x v).2)

/-- In either order each of two calls answers the same, and they lead to the same world: the
same store, ledger and outbox. -/
structure Commute {σ α β : Type} (x : ServiceM σ α) (y : ServiceM σ β) (w : World σ) : Prop where
  first : (x (y w).2).1 = (x w).1
  second : (y (x w).2).1 = (y w).1
  world : (y (x w).2).2 = (x (y w).2).2

/-- The four calls of the two orders. -/
theorem Commute.of_eq {σ α β : Type} {x : ServiceM σ α} {y : ServiceM σ β} {w wx wy w' : World σ}
    {a : Except ServiceError α} {b : Except ServiceError β} (hx : x w = (a, wx))
    (hy : y w = (b, wy)) (hxy : y wx = (b, w')) (hyx : x wy = (a, w')) : Commute x y w := by
  constructor <;> simp only [hx, hy, hxy, hyx]

/-! ## The steps of the two calls -/

section Transfers

variable {σ : Type} {w : World σ} {t : Transfer} {l : Ledger}

theorem ServiceM.pay_of_accepted (hw : w.interruption = none)
    (h : w.ledger.send t = (.ok (), l)) : pay t w = (.ok (), { w with ledger := l }) := by
  simp only [pay, World.pay, h, hw]

theorem ServiceM.pay_of_refused {e : ChainError}
    (h : w.ledger.send t = (.error e, l)) :
    pay t w = (.error (.chain e), { w with ledger := l }) := by
  simp only [pay, World.pay, h]

end Transfers

section Steps

variable {σ : Type} [Store σ] {settings : Settings} {w v : World σ} {owner receiver : Owner}
  {code : String}

theorem ServiceM.settled_apply {α : Type} {x : ServiceM σ α} {a : Except ServiceError α}
    (h : x { w with pending := [] } = (a, v)) :
    settled settings x w = (a, { settle settings v with pending := w.pending }) := by
  simp only [settled, World.settled, h]

/-- A check reads the registration of its owner, and nothing else. -/
theorem Confirmation.check_congr {x : Except ServiceError Registration}
    (h : check owner code w = (x, w))
    (hread : Store.registration v.store owner = Store.registration w.store owner) :
    check owner code v = (x, v) := by
  suffices hsame : check owner code v = ((check owner code w).1, v) by rw [hsame, h]
  unfold check
  rw [Computation.bind_apply, Computation.bind_apply]
  simp only [ServiceM.find, ServiceM.read, hread]
  rcases Except.found? (Store.registration w.store owner) with e | _ | r
  · rfl
  · rfl
  · dsimp only
    split
    · rfl
    · split <;> rfl

/-- A confirmation whose stake is refused. -/
theorem confirm_of_refused {r : Registration} {l : Ledger} {e : ChainError}
    (hcheck : Confirmation.check owner code w = (.ok r, w))
    (hsend : w.ledger.send ⟨r.address, settings.initialStake, Confirmation.stakeMemo owner⟩ =
      (.error e, l)) :
    confirm settings owner code w = (.error (.chain e), { w with ledger := l }) := by
  have hstake : Confirmation.grantStake settings owner r w = _ := ServiceM.pay_of_refused hsend
  unfold confirm
  rw [Computation.bind_of_ok hcheck, Computation.bind_of_error hstake]

/-- A confirmation that is stored is recorded. -/
theorem Confirmation.record_of_ok {s : σ}
    (h : Store.confirmRegistration owner w.clock w.store = (.ok (), s)) :
    record owner w = (.ok (), { w with store := s }) := by
  unfold record
  rw [Computation.bind_of_ok (ServiceM.now_apply w),
    Computation.bind_of_ok (ServiceM.write_of_ok h)]
  rfl

/-- A confirmation that goes through. -/
theorem confirm_of_ok {r : Registration} {l : Ledger} {s : σ} (hw : w.interruption = none)
    (hcheck : Confirmation.check owner code w = (.ok r, w))
    (hsend : w.ledger.send ⟨r.address, settings.initialStake, Confirmation.stakeMemo owner⟩ =
      (.ok (), l))
    (hstore : Store.confirmRegistration owner w.clock w.store = (.ok (), s)) :
    confirm settings owner code w = (.ok (), { w with
      store := s
      ledger := l
      outbox := w.outbox ++ [.welcome r.email]
      pending := w.pending ++ [owner] }) := by
  have hstake : Confirmation.grantStake settings owner r w = _ := ServiceM.pay_of_accepted hw hsend
  have hrecord : Confirmation.record owner { w with ledger := l } = _ :=
    Confirmation.record_of_ok hstore
  unfold confirm
  rw [Computation.bind_of_ok hcheck, Computation.bind_of_ok hstake, Computation.bind_of_ok hrecord]
  rfl

/-- An installation that is stored leaves a receiver to be paid for who is confirmed. -/
theorem markInstalled_of_ok {r : Registration} {s : σ}
    (hstore : Store.installReferral receiver w.clock w.store = (.ok (), s))
    (hr : Store.registration s receiver = .ok r) :
    markInstalled receiver w = (.ok (), { w with
      store := s
      pending := w.pending ++ if r.isConfirmed then [receiver] else [] }) := by
  have hfind : ServiceM.find (Store.registration · receiver) { w with store := s } =
      (.ok (some r), { w with store := s }) := ServiceM.read_of_ok (congrArg Except.found? hr)
  unfold markInstalled Installation.notice
  rw [Computation.bind_of_ok (Installation.record_of_ok hstore), Computation.bind_of_ok hfind]
  dsimp only
  split
  · rfl
  · rw [List.append_nil]
    rfl

end Steps

section Payouts

variable {σ : Type} [Store σ] [LawfulStore σ] {settings : Settings} {w : World σ}
  {receiver : Owner}

/-- A referral that is not installed is not paid. -/
theorem advanceReferral_of_status {f : Referral} (hbegin : .transaction ∉ failing w.store)
    (hf : Store.referral w.store receiver = .ok f) (hstatus : f.status ≠ .installed) :
    advanceReferral settings receiver w = (.ok none, w) := by
  have hplan : Payout.plan settings receiver w.clock (w.store, w.random) =
      (.ok none, (w.store, w.random)) := by
    have hfind : TransactionM.find (Store.referral · receiver) (w.store, w.random) =
        (.ok (some f), (w.store, w.random)) := TransactionM.find_of_ok hf
    unfold Payout.plan
    rw [Computation.bind_of_ok hfind]
    dsimp only
    rw [if_pos hstatus]
    rfl
  have htransaction : ServiceM.transaction (Payout.plan settings receiver w.clock) w =
      (.ok none, w) := by
    have htried : ServiceM.tryTransaction (Payout.plan settings receiver w.clock) w =
        (.ok (.ok none), w) := by
      simp only [ServiceM.tryTransaction, Store.transaction_of_ok hbegin hplan]
    unfold ServiceM.transaction
    rw [Computation.bind_of_ok htried]
    rfl
  unfold advanceReferral
  rw [Computation.bind_of_ok (ServiceM.now_apply w), Computation.bind_of_ok htransaction]
  rfl

/-! ## What an installation leaves alone -/

/-- A world with the registrations of another one, and a store that does not fail. -/
structure World.Retains (v w : World σ) : Prop where
  good : v.Good
  safe : failing v.store = []
  registration_eq : (contents v.store).registration = (contents w.store).registration

/-- Who waits does not matter. -/
theorem World.Retains.rest {v : World σ} (h : v.Retains w) (pending : List Owner) :
    World.Retains { v with pending } w :=
  ⟨⟨h.good.sound, h.good.quiet⟩, h.safe, h.registration_eq⟩

/-- An entry about a referral, if about anything. -/
def Entry.IsReferral : Entry → Prop
  | nothing | installed _ | paid _ => True
  | _ => False

/-- An entry about a referral changes no registration. -/
theorem World.Retains.made {v v' : World σ} {entry : Entry} (h : v.Retains w)
    (hmade : Made settings v v' entry) (hentry : entry.IsReferral) : v'.Retains w := by
  have hstep := hmade.step
  refine ⟨hmade.good, hstep.failing_eq.trans h.safe, Eq.trans ?_ h.registration_eq⟩
  show v'.books.contents.registration = v.books.contents.registration
  generalize v'.books = b' at hstep
  cases hstep <;> first | rfl | exact hentry.elim

/-- What is stored the same is read the same. -/
theorem World.Retains.read_eq {v : World σ} (h : v.Retains w) (hw : w.Good)
    (hsafe : failing w.store = []) {o : Owner} (ho : o.IsHash) :
    Store.registration v.store o = Store.registration w.store o := by
  have hsearch := LawfulStore.registration o h.good.sound
  rw [h.registration_eq] at hsearch
  exact hsearch.eq (LawfulStore.registration o hw.sound) (LawfulStore.not_broken h.safe ho)
    (LawfulStore.not_broken hsafe ho) fun _ _ hr hq => Option.some.inj (hr.symm.trans hq)

/-- **An installation leaves every registration as it was**, and so do its payouts. -/
theorem retains_markInstalled (settings : Settings) (hw : w.Good)
    (hsafe : failing w.store = []) (receiver : Owner) :
    ((markInstalled receiver).settled settings w).2.Retains w := by
  have hv : World.Retains { w with pending := [] } w := ⟨⟨hw.sound, hw.quiet⟩, hsafe, rfl⟩
  show (w.settled settings fun v => (markInstalled receiver v).2).Retains w
  refine World.settled_keeps (P := (World.Retains · w)) (fun _ pending hv => hv.rest pending) ?_ ?_
  · rcases @markInstalled_made σ _ _ settings _ hv.good receiver with ⟨f, -, hmade⟩ | hmade
    · exact hv.made hmade trivial
    · exact hv.made hmade trivial
  · intro v hv o _
    rcases advanceReferral_made settings hv.good o with ⟨p, -, hmade⟩ | ⟨hmade, -⟩
    · exact hv.made hmade trivial
    · exact hv.made hmade trivial

end Payouts

/-! ## The calls with their payouts -/

section Settled

variable {σ : Type} [Store σ] {settings : Settings} {w : World σ} {owner receiver : Owner}
  {code : String} {r : Registration} {l : Ledger} {s : σ}

theorem settled_confirm_of_error {e : ServiceError}
    (hcheck : Confirmation.check owner code w = (.error e, w)) :
    (confirm settings owner code).settled settings w = (.error e, w) := by
  have hcalled : confirm settings owner code { w with pending := [] } = _ :=
    Computation.bind_of_error (Confirmation.check_congr hcheck rfl)
  exact ServiceM.settled_apply hcalled

theorem settled_confirm_of_refused {e : ChainError}
    (hcheck : Confirmation.check owner code w = (.ok r, w))
    (hsend : w.ledger.send ⟨r.address, settings.initialStake, Confirmation.stakeMemo owner⟩ =
      (.error e, l)) :
    (confirm settings owner code).settled settings w =
      (.error (.chain e), { w with ledger := l }) :=
  ServiceM.settled_apply (confirm_of_refused (Confirmation.check_congr hcheck rfl) hsend)

/-- The payout that a confirmation leaves waiting follows it. -/
theorem settled_confirm_of_ok (hw : w.interruption = none)
    (hcheck : Confirmation.check owner code w = (.ok r, w))
    (hsend : w.ledger.send ⟨r.address, settings.initialStake, Confirmation.stakeMemo owner⟩ =
      (.ok (), l))
    (hstore : Store.confirmRegistration owner w.clock w.store = (.ok (), s)) :
    (confirm settings owner code).settled settings w =
      (.ok (), { (advanceReferral settings owner { w with
        store := s
        ledger := l
        outbox := w.outbox ++ [.welcome r.email]
        pending := [] }).2 with pending := w.pending }) :=
  ServiceM.settled_apply (confirm_of_ok hw (Confirmation.check_congr hcheck rfl) hsend hstore)

theorem settled_markInstalled_of_open
    (hstore : Store.installReferral receiver w.clock w.store = (.ok (), s))
    (hr : Store.registration s receiver = .ok r) (hopen : r.isConfirmed = false) :
    (markInstalled receiver).settled settings w = (.ok (), { w with store := s }) := by
  have hcalled := markInstalled_of_ok (w := { w with pending := [] }) hstore hr
  rw [hopen] at hcalled
  exact ServiceM.settled_apply hcalled

/-- The payout that an installation leaves waiting follows it. -/
theorem settled_markInstalled_of_confirmed
    (hstore : Store.installReferral receiver w.clock w.store = (.ok (), s))
    (hr : Store.registration s receiver = .ok r) (hconfirmed : r.isConfirmed = true) :
    (markInstalled receiver).settled settings w =
      (.ok (), { (advanceReferral settings receiver { w with store := s, pending := [] }).2 with
        pending := w.pending }) := by
  have hcalled := markInstalled_of_ok (w := { w with pending := [] }) hstore hr
  rw [hconfirmed] at hcalled
  exact ServiceM.settled_apply hcalled

end Settled

/-! ## Either order -/

/-- A registration that is open is confirmed unless confirming is made to fail. -/
theorem LawfulStore.confirmRegistration_of_open {σ : Type} [Store σ] [LawfulStore σ] {s : σ}
    (hs : Sound s) (hsafe : failing s = []) {o : Owner} {r : Registration}
    (hr : (contents s).registration o = some r) (hopen : r.isConfirmed = false)
    (time : Timestamp) :
    ∃ s', Store.confirmRegistration o time s = (.ok (), s') ∧
      Becomes s ((contents s).put { r with confirmedAt := some time }) s' := by
  have hconfirmed : (contents s).confirm o time = .ok _ :=
    Contents.confirm_eq_ok.2 ⟨r, hr, hopen, rfl⟩
  have hwritten := LawfulStore.confirmRegistration o time hs
  obtain ⟨s', hstore⟩ := hwritten.eq_ok (fun e he => nomatch he.trans hconfirmed)
    (not_broken hsafe ((coherent hs).isHash hr))
  obtain ⟨hcontents, hbecomes⟩ := hwritten.of_eq_ok hstore
  rw [Except.ok.inj (hcontents.trans hconfirmed)] at hbecomes
  exact ⟨s', hstore, hbecomes⟩

section Open

variable {σ : Type} [Store σ] [LawfulStore σ] {w : World σ} {receiver : Owner} {code : String}
  {r : Registration}

/-- A receiver who is not confirmed has submitted the right code, to a store that does not
fail. -/
structure World.Opens (w : World σ) (receiver : Owner) (code : String) (r : Registration) :
    Prop where
  good : w.Good
  safe : failing w.store = []
  held : (contents w.store).registration receiver = some r
  isOpen : r.isConfirmed = false
  check_eq : Confirmation.check receiver code w = (.ok r, w)

theorem World.Opens.read_eq (h : w.Opens receiver code r) :
    Store.registration w.store receiver = .ok r :=
  LawfulStore.registration_eq_ok h.good.sound h.safe h.held

/-- An installation goes through, and the code is the right one behind it, too. -/
theorem World.Opens.installs (h : w.Opens receiver code r) {f : Referral}
    (hf : (contents w.store).referral receiver = some f) (hstart : f.status = .registered) :
    ∃ s, Store.installReferral receiver w.clock w.store = (.ok (), s) ∧
      World.Opens { w with store := s } receiver code r := by
  obtain ⟨s, hinstall, hbecomes⟩ :=
    LawfulStore.installReferral_of_start h.good.sound (by simp [h.safe]) hf hstart w.clock
  have hsafe : failing s = [] := hbecomes.failing_eq.trans h.safe
  have hheld : (contents s).registration receiver = some r := by
    rw [hbecomes.contents_eq]
    exact h.held
  have hread := LawfulStore.registration_eq_ok hbecomes.sound hsafe hheld
  exact ⟨s, hinstall, ⟨hbecomes.sound, h.good.quiet⟩, hsafe, hheld, h.isOpen,
    Confirmation.check_congr h.check_eq (hread.trans h.read_eq.symm)⟩

/-- So does the confirmation, once the stake is accepted. -/
theorem World.Opens.confirms (h : w.Opens receiver code r) :
    ∃ s, Store.confirmRegistration receiver w.clock w.store = (.ok (), s) ∧
      Becomes w.store ((contents w.store).put { r with confirmedAt := some w.clock }) s :=
  LawfulStore.confirmRegistration_of_open h.good.sound h.safe h.held h.isOpen w.clock

end Open

section Orders

variable {kind : StoreKind} {settings : Settings} {w : World kind.State} {receiver : Owner}
  {code : String} {r : Registration} {f : Referral} {l : Ledger}

/-- A confirmation that is turned away is turned away behind the installation, too. -/
theorem commute_of_error (hw : w.Good) (hsafe : failing w.store = []) (hreceiver : receiver.IsHash)
    {e : ServiceError} (hcheck : Confirmation.check receiver code w = (.error e, w)) :
    Commute ((confirm settings receiver code).settled settings)
      ((markInstalled receiver).settled settings) w := by
  have hread := (retains_markInstalled settings hw hsafe receiver).read_eq hw hsafe hreceiver
  exact .of_eq (settled_confirm_of_error hcheck) rfl rfl
    (settled_confirm_of_error (Confirmation.check_congr hcheck hread))

/-- A confirmation whose stake is refused changes the ledger alone. -/
theorem commute_of_refused (h : w.Opens receiver code r)
    (hf : (contents w.store).referral receiver = some f) (hstart : f.status = .registered)
    {e : ChainError}
    (hsend : w.ledger.send ⟨r.address, settings.initialStake, Confirmation.stakeMemo receiver⟩ =
      (.error e, l)) :
    Commute ((confirm settings receiver code).settled settings)
      ((markInstalled receiver).settled settings) w := by
  obtain ⟨s, hinstall, hinstalled⟩ := h.installs hf hstart
  exact .of_eq (settled_confirm_of_refused h.check_eq hsend)
    (settled_markInstalled_of_open hinstall hinstalled.read_eq h.isOpen)
    (settled_markInstalled_of_open hinstall hinstalled.read_eq h.isOpen)
    (settled_confirm_of_refused hinstalled.check_eq hsend)

/-- A confirmation that goes through is followed by one payout in either order, and in the same
world. -/
theorem commute_of_accepted (h : w.Opens receiver code r)
    (hf : (contents w.store).referral receiver = some f) (hstart : f.status = .registered)
    (hsend : w.ledger.send ⟨r.address, settings.initialStake, Confirmation.stakeMemo receiver⟩ =
      (.ok (), l)) :
    Commute ((confirm settings receiver code).settled settings)
      ((markInstalled receiver).settled settings) w := by
  obtain rfl : r.owner = receiver := (LawfulStore.coherent h.good.sound).owner_eq h.held
  -- each of the two writes on its own, and one behind the other
  obtain ⟨s₁, hconfirm, hbecomes₁⟩ := h.confirms
  obtain ⟨s₂, hinstall, hinstalled⟩ := h.installs hf hstart
  obtain ⟨s, hconfirm', hbecomes⟩ := hinstalled.confirms
  obtain ⟨s', hstore, hinstall'⟩ :=
    StoreKind.confirm_install h.good.sound h.safe hconfirm hinstall
  obtain rfl : s = s' := congrArg Prod.snd (hconfirm'.symm.trans hstore)
  have hsafe₁ : failing s₁ = [] := hbecomes₁.failing_eq.trans h.safe
  -- a payout between the two calls finds a referral that is not installed
  have hfirst : (confirm settings r.owner code).settled settings w = (.ok (), { w with
      store := s₁, ledger := l, outbox := w.outbox ++ [.welcome r.email] }) := by
    have hf₁ : Store.referral s₁ r.owner = .ok f :=
      LawfulStore.referral_eq_ok hbecomes₁.sound hsafe₁ (by rw [hbecomes₁.contents_eq]; exact hf)
    rw [settled_confirm_of_ok h.good.quiet h.check_eq hsend hconfirm,
      advanceReferral_of_status (by simp [hsafe₁]) hf₁ (by simp [hstart])]
  -- whichever call comes second, the receiver is confirmed behind it
  have hread : Store.registration s r.owner = .ok { r with confirmedAt := some w.clock } :=
    LawfulStore.registration_eq_ok hbecomes.sound (hbecomes.failing_eq.trans hinstalled.safe)
      (by rw [hbecomes.contents_eq]; exact Contents.registration_put_self ..)
  exact .of_eq hfirst (settled_markInstalled_of_open hinstall hinstalled.read_eq h.isOpen)
    (settled_markInstalled_of_confirmed hinstall' hread rfl)
    (settled_confirm_of_ok h.good.quiet hinstalled.check_eq hsend hconfirm')

/-- Whatever is submitted, and whatever the chain takes. -/
theorem World.Good.commutes (hw : w.Good) (hsafe : failing w.store = []) (settings : Settings)
    (code : String) (hf : (contents w.store).referral receiver = some f)
    (hstart : f.status = .registered) :
    Commute ((confirm settings receiver code).settled settings)
      ((markInstalled receiver).settled settings) w := by
  rcases Confirmation.check_cases hw receiver code with ⟨r, hr, -, hfresh, hcheck⟩ | ⟨e, -, hcheck⟩
  · have hopen : r.isConfirmed = false := by
      rw [Registration.isConfirmed, hfresh]
      rfl
    have hopens : w.Opens receiver code r := ⟨hw, hsafe, hr, hopen, hcheck⟩
    rcases hsend : w.ledger.send
      ⟨r.address, settings.initialStake, Confirmation.stakeMemo receiver⟩ with ⟨e | _, l⟩
    · exact commute_of_refused hopens hf hstart hsend
    · exact commute_of_accepted hopens hf hstart hsend
  · exact commute_of_error hw hsafe (LawfulStore.isHash_of_referral hw.sound hf) hcheck

end Orders

/-- **Confirming and installing commute.** In every state that a run leads to, on either store
and whatever transfers the chain refuses, as long as the store does not fail: a receiver whose
referral is at its start may submit any code before the app is installed or after it. Each call,
with the payouts it leaves waiting, answers the same in both orders, and both lead to one world,
with one store, one sequence of transfers and the same mails. -/
theorem commutes_run (kind : StoreKind) (settings : Settings) (clock : Timestamp)
    (domains : List String) (acts : List Act) (receiver : Owner) (code : String) {f : Referral} :
    let w := (World.seeded kind.State clock domains).run settings acts
    failing w.store = [] → Store.referral w.store receiver = .ok f → f.status = .registered →
      Commute ((confirm settings receiver code).settled settings)
        ((markInstalled receiver).settled settings) w := by
  intro w hsafe hrow hstart
  have hw : w.Good := World.good_run settings (World.good_seeded clock domains) acts
  exact hw.commutes hsafe settings code ((LawfulStore.referral receiver hw.sound).of_found hrow)
    hstart

namespace Guest

/-- The second owner is invited by the first one. -/
def acts : List Act :=
  [.call (.register ⟨"a@x.com", Shared.byteLength_first⟩ Shared.wallet none),
    .call (.register ⟨"b@x.com", Shared.byteLength_second⟩ Shared.guestWallet
      (some ⟨"00000002", Shared.byteLength_code⟩))]

def world : World StoreKind.table.State :=
  (World.seeded StoreKind.table.State ⟨1700000000⟩ []).run { } acts

theorem failing_eq : failing world.store = [] := by
  have hstart : World.Attended (World.seeded StoreKind.table.State ⟨1700000000⟩ []) [] :=
    World.attended_start ⟨1700000000⟩
  exact (World.attended_run { } hstart acts (by simp [acts, Act.Safe])).safe

/-- The code that was mailed to the second owner is submitted, and the app is installed. -/
def confirming : ServiceM StoreKind.table.State Unit :=
  (confirm { } Shared.second "00000000000000000000000000000003").settled { }

def installing : ServiceM StoreKind.table.State Unit :=
  (markInstalled Shared.second).settled { }

theorem referral_transfers_eq :
    Store.referral world.store Shared.second =
        .ok (.start Shared.first Shared.second ⟨1700000000⟩) ∧
      (installing (confirming world).2).2.ledger.transfers =
        [⟨Shared.guestWallet, ⟨1000000⟩, Confirmation.stakeMemo Shared.second⟩,
          ⟨Shared.wallet, ⟨10000000⟩, Payout.senderMemo Shared.second⟩,
          ⟨Shared.guestWallet, ⟨10000000⟩, Payout.receiverMemo Shared.second⟩] := by
  unfold world World.run acts
  simp only [List.foldl_cons, List.foldl_nil, World.act, Call.after, register,
    Shared.ofEmail_first, Shared.ofEmail_second]
  decide +kernel

end Guest

open Guest in
/-- The stake and both rewards are transferred, whichever of the two calls comes first. -/
theorem commutes_run_guest :
    failing world.store = [] ∧
      Store.referral world.store Shared.second =
        .ok (.start Shared.first Shared.second ⟨1700000000⟩) ∧
      Commute confirming installing world ∧
      (confirming (installing world).2).2.ledger.transfers.length = 3 := by
  obtain ⟨hreferral, htransfers⟩ := referral_transfers_eq
  have hcommute : Commute confirming installing world :=
    commutes_run .table { } ⟨1700000000⟩ [] acts Shared.second _ failing_eq hreferral rfl
  refine ⟨failing_eq, hreferral, hcommute, ?_⟩
  rw [← hcommute.world, htransfers]
  rfl

end Onboarding
