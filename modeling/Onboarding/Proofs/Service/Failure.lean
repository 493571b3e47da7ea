import Onboarding.Proofs.Service.Rewards
import Onboarding.Proofs.Service.Run
/-!
# Failures — a call that fails has written nothing

Many steps of a call may fail after others have run: a registration is put before its
inviter is looked up, codes are drawn in between, and a stake goes out before the
confirmation is stored. What a call writes, though, it writes in one transaction, and
behind that transaction nothing fails. So each call is a row of steps that write nothing
(`Keeps`), one step that writes all or nothing (`FailsWithin`), and steps that always
succeed. The two rules for sequences put this together, for every store and for every
step that may fail.
-/

namespace Onboarding

open StoreView

/-- Nothing was written and nobody is told: only the draws have gone on, and the ledger if
there was something to pay. -/
structure World.Untouched {σ : Type} (paying : Prop) (w w' : World σ) : Prop where
  store_eq : w'.store = w.store
  outbox_eq : w'.outbox = w.outbox
  pending_eq : w'.pending = w.pending
  clock_eq : w'.clock = w.clock
  interruption_eq : w'.interruption = w.interruption
  ledger_eq : ¬ paying → w'.ledger = w.ledger

namespace World.Untouched

variable {σ : Type} {paying : Prop} {u v w : World σ}

theorem refl (w : World σ) : w.Untouched paying w := ⟨rfl, rfl, rfl, rfl, rfl, fun _ => rfl⟩

theorem trans (huv : u.Untouched paying v) (hvw : v.Untouched paying w) :
    u.Untouched paying w where
  store_eq := hvw.store_eq.trans huv.store_eq
  outbox_eq := hvw.outbox_eq.trans huv.outbox_eq
  pending_eq := hvw.pending_eq.trans huv.pending_eq
  clock_eq := hvw.clock_eq.trans huv.clock_eq
  interruption_eq := hvw.interruption_eq.trans huv.interruption_eq
  ledger_eq h := (hvw.ledger_eq h).trans (huv.ledger_eq h)

end World.Untouched

namespace ServiceM

variable {σ α β : Type} {paying : Prop}

/-- A step writes nothing, whatever it answers. -/
def Keeps (paying : Prop) (x : ServiceM σ α) : Prop :=
  ∀ w : World σ, w.interruption = none → w.Untouched paying (x w).2

/-- A step writes nothing if it fails. -/
def FailsWithin (paying : Prop) (x : ServiceM σ α) : Prop :=
  ∀ (w : World σ) e w', w.interruption = none → x w = (.error e, w') → w.Untouched paying w'

/-- A step does not fail. -/
def Succeeds (x : ServiceM σ α) : Prop := ∀ w : World σ, ∃ a w', x w = (.ok a, w')

theorem Keeps.failsWithin {x : ServiceM σ α} (h : Keeps paying x) : FailsWithin paying x := by
  intro w e w' hw hx
  have hkept := h w hw
  rw [hx] at hkept
  exact hkept

/-! ## Sequences -/

section Sequences

variable {x : ServiceM σ α} {f : α → ServiceM σ β}

theorem Keeps.bind (hx : Keeps paying x) (hf : ∀ a, Keeps paying (f a)) :
    Keeps paying (x >>= f) := by
  intro w hw
  have hkept := hx w hw
  rw [Computation.bind_apply]
  rcases hstep : x w with ⟨e | a, v⟩ <;> rw [hstep] at hkept
  · exact hkept
  · exact hkept.trans (hf a v (hkept.interruption_eq.trans hw))

/-- **What is read before** is no hindrance to failing. -/
theorem Keeps.bind_failsWithin (hx : Keeps paying x) (hf : ∀ a, FailsWithin paying (f a)) :
    FailsWithin paying (x >>= f) := by
  intro w e w' hw h
  have hkept := hx w hw
  rw [Computation.bind_apply] at h
  rcases hstep : x w with ⟨e' | a, v⟩ <;> rw [hstep] at h hkept
  · cases h
    exact hkept
  · exact hkept.trans (hf a v e w' (hkept.interruption_eq.trans hw) h)

/-- **Nothing fails behind the writing.** -/
theorem FailsWithin.bind (hx : FailsWithin paying x) (hf : ∀ a, Succeeds (f a)) :
    FailsWithin paying (x >>= f) := by
  intro w e w' hw h
  rw [Computation.bind_apply] at h
  rcases hstep : x w with ⟨e' | a, v⟩ <;> rw [hstep] at h
  · cases h
    exact hx w e w' hw hstep
  · obtain ⟨b, v', hok⟩ := hf a v
    cases hok.symm.trans h

end Sequences

/-! ## Steps -/

theorem keeps_pure (a : α) : Keeps paying (pure a : ServiceM σ α) := fun w _ => .refl w

theorem keeps_throw (e : ServiceError) : Keeps paying (throw e : ServiceM σ α) := fun w _ => .refl w

theorem keeps_now : Keeps paying (now : ServiceM σ Timestamp) := fun w _ => .refl w

theorem keeps_read (f : σ → Except StoreError α) : Keeps paying (read f) := by
  intro w _
  rcases read_cases f w with ⟨a, -, h⟩ | ⟨e, -, h⟩ <;> rw [h] <;> exact .refl w

theorem keeps_find (f : σ → Except StoreError α) : Keeps paying (find f) :=
  keeps_read fun s => Except.found? (f s)

/-- A transfer that nobody interrupts changes the ledger alone. -/
theorem keeps_pay (t : Transfer) : Keeps (σ := σ) True (pay t) := by
  intro w hw
  rcases pay_cases t hw with ⟨l, h, -, -⟩ | ⟨e, l, -, h, -, -⟩ <;> rw [h] <;>
    exact ⟨rfl, rfl, rfl, rfl, rfl, fun h => absurd trivial h⟩

theorem succeeds_pure (a : α) : Succeeds (pure a : ServiceM σ α) := fun w => ⟨a, w, rfl⟩

theorem succeeds_mail_bind (m : Mail) (f : Unit → ServiceM σ α) (hf : ∀ u, Succeeds (f u)) :
    Succeeds (mail m >>= f) := fun w => hf () { w with outbox := w.outbox ++ [m] }

theorem succeeds_later (receiver : Owner) : Succeeds (later (σ := σ) receiver) :=
  fun _ => ⟨(), _, rfl⟩

/-- What is answered after a transaction fails only if the transaction did. -/
theorem tryTransaction_failsWithin [Store σ] (body : TransactionM σ α)
    {answer : Except ServiceError α → ServiceM σ β}
    (hok : ∀ a, Succeeds (answer (.ok a))) (herror : ∀ e, Keeps paying (answer (.error e))) :
    FailsWithin paying (tryTransaction body >>= answer) := by
  intro w e w' hw h
  rcases tryTransaction_cases body w with ⟨a, s, g, -, hbody⟩ | ⟨e', g, -, hbody⟩
  · rw [Computation.bind_of_ok hbody] at h
    obtain ⟨b, v, hanswer⟩ := hok a { w with store := s, random := g }
    cases hanswer.symm.trans h
  · rw [Computation.bind_of_ok hbody] at h
    have hdrawn : w.Untouched paying { w with random := g } :=
      ⟨rfl, rfl, rfl, rfl, rfl, fun _ => rfl⟩
    exact hdrawn.trans ((herror e').failsWithin _ _ _ hw h)

theorem transaction_failsWithin [Store σ] (body : TransactionM σ α) :
    FailsWithin paying (transaction body) :=
  tryTransaction_failsWithin body (fun a w => ⟨a, w, rfl⟩) fun _ w _ => .refl w

/-- What is answered after a write fails only if the write did. -/
theorem write_failsWithin {op : StoreM σ Unit} {answer : Except StoreError Unit → ServiceM σ β}
    (hok : Succeeds (answer (.ok ()))) (herror : ∀ e, Keeps paying (answer (.error e))) :
    FailsWithin paying (write op >>= answer) := by
  intro w e w' hw h
  rcases hop : op w.store with ⟨e' | _, s⟩
  · rw [Computation.bind_of_ok (write_of_error hop)] at h
    exact (herror e').failsWithin _ _ _ hw h
  · rw [Computation.bind_of_ok (write_of_ok hop)] at h
    obtain ⟨b, v, hanswer⟩ := hok { w with store := s }
    cases hanswer.symm.trans h

end ServiceM

/-! ## Calls -/

section Calls

open ServiceM

variable {σ : Type} {paying : Prop} {settings : Settings}

theorem Enrollment.keeps_checkAddress (settings : Settings) (address : WalletAddress) :
    Keeps (σ := σ) paying (checkAddress settings address) := by
  intro w _
  rcases checkAddress_cases settings address w with ⟨e, h⟩ | ⟨h, -⟩ <;> rw [h] <;> exact .refl w

theorem Faucet.keeps_expectNone (f : σ → Except StoreError Registration) :
    Keeps paying (expectNone f) := by
  refine (keeps_find _).bind fun found => ?_
  split
  · exact keeps_throw _
  · exact keeps_pure _

variable [Store σ]

theorem Confirmation.keeps_check (owner : Owner) (code : String) :
    Keeps (σ := σ) paying (check owner code) := by
  refine (keeps_find _).bind fun found => ?_
  cases found with
  | none => exact keeps_throw _
  | some r =>
    dsimp only
    split
    · exact keeps_throw _
    · split
      · exact keeps_throw _
      · exact keeps_pure _

/-- A registration that fails has mailed nothing: the mail follows the transaction. -/
theorem register_failsWithin (email : String) (address : WalletAddress) (code? : Option String) :
    FailsWithin (σ := σ) paying (register settings email address code?) := by
  refine (Enrollment.keeps_checkAddress settings address).bind_failsWithin fun _ => ?_
  refine (keeps_read _).bind_failsWithin fun listed => ?_
  split
  · exact (keeps_throw _).failsWithin
  · refine keeps_now.bind_failsWithin fun now => ?_
    exact (transaction_failsWithin _).bind fun r => succeeds_mail_bind _ _ fun _ => succeeds_pure _

theorem trackReferral_failsWithin (receiver : Owner) (code : String) :
    FailsWithin (σ := σ) paying (trackReferral receiver code) :=
  keeps_now.bind_failsWithin fun _ => transaction_failsWithin _

theorem Confirmation.record_failsWithin (owner : Owner) :
    FailsWithin (σ := σ) paying (record owner) := by
  refine keeps_now.bind_failsWithin fun now => write_failsWithin (succeeds_pure _) fun e => ?_
  cases e <;> exact keeps_throw _

/-- A confirmation that fails may have paid, but has stored and mailed nothing. -/
theorem confirm_failsWithin (owner : Owner) (code : String) :
    FailsWithin (σ := σ) True (confirm settings owner code) := by
  refine (Confirmation.keeps_check owner code).bind_failsWithin fun r => ?_
  refine (keeps_pay _).bind_failsWithin fun _ => ?_
  refine (Confirmation.record_failsWithin owner).bind fun _ => ?_
  exact succeeds_mail_bind _ _ fun _ => succeeds_later _

theorem grantTestnetStake_failsWithin (address : WalletAddress) :
    FailsWithin (σ := σ) True (grantTestnetStake settings address) := by
  unfold grantTestnetStake
  cases settings.testnetStake with
  | none => exact (keeps_throw _).failsWithin
  | some stake =>
    refine (Enrollment.keeps_checkAddress settings address).bind_failsWithin fun _ => ?_
    refine (Faucet.keeps_expectNone _).bind_failsWithin fun _ => ?_
    refine (Faucet.keeps_expectNone _).bind_failsWithin fun _ => ?_
    refine (keeps_pay _).bind_failsWithin fun _ => ?_
    refine keeps_now.bind_failsWithin fun now => ?_
    refine tryTransaction_failsWithin _ (fun _ => succeeds_pure _) fun e => ?_
    split
    · exact keeps_pure _
    all_goals exact keeps_throw _

/-- A stake is lost only to a store that fails. -/
theorem Step.broken_of_stakeLost {now : Timestamp} {b b' : Books} {r : Registration}
    (h : Step settings now b (.stakeLost r) b') : .setConfirmed ∈ b.failing := by
  cases h with
  | stakeLost _ _ broken => exact broken

/-- A confirmation that fails has paid only if the store failed after that. -/
theorem transfers_of_confirm_error [LawfulStore σ] {w w' : World σ} (hw : w.Good) {owner : Owner}
    {code : String} {e : ServiceError} (h : confirm settings owner code w = (.error e, w'))
    (hsafe : .setConfirmed ∉ failing w.store) : w'.ledger.transfers = w.ledger.transfers := by
  obtain ⟨entry, hanswer, hmade⟩ := confirm_made settings hw owner code
  rw [h] at hanswer hmade
  obtain ⟨sent, htransfers, hsent⟩ := hmade.step.sends
  have hnone : sent = [] := by
    refine List.eq_nil_iff_forall_not_mem.2 fun t ht => ?_
    cases hanswer with
    | failed | refused _ _ => cases hsent t ht
    | lost _ _ => exact hsafe hmade.step.broken_of_stakeLost
  rw [hnone, List.append_nil] at htransfers
  exact htransfers

end Calls

/-! ## Whole runs -/

/-- What a world keeps of itself when a call on it fails. -/
structure World.AllOrNothing {σ : Type} [Store σ] [StoreView σ] (settings : Settings)
    (w : World σ) : Prop where
  register : ∀ email address code? e w',
    Onboarding.register settings email address code? w = (.error e, w') → w.Untouched False w'
  trackReferral : ∀ receiver code e w',
    Onboarding.trackReferral receiver code w = (.error e, w') → w.Untouched False w'
  /-- A stake may have been tried. It was accepted only if the confirmation could not be
  stored. -/
  confirm : ∀ owner code e w', Onboarding.confirm settings owner code w = (.error e, w') →
    w.Untouched True w' ∧
      (.setConfirmed ∉ failing w.store → w'.ledger.transfers = w.ledger.transfers)
  /-- A grant may have been tried, or even made and not been stored. -/
  grantTestnetStake : ∀ address e w',
    Onboarding.grantTestnetStake settings address w = (.error e, w') → w.Untouched True w'

theorem World.Good.allOrNothing {σ : Type} [Store σ] [LawfulStore σ] {w : World σ}
    (hw : w.Good) (settings : Settings) : w.AllOrNothing settings where
  register email address code? e w' h :=
    register_failsWithin email address code? w e w' hw.quiet h
  trackReferral receiver code e w' h := trackReferral_failsWithin receiver code w e w' hw.quiet h
  confirm owner code e w' h :=
    ⟨confirm_failsWithin owner code w e w' hw.quiet h, transfers_of_confirm_error hw h⟩
  grantTestnetStake address e w' h :=
    grantTestnetStake_failsWithin address w e w' hw.quiet h

/-- **A call that fails leaves everything stored as it was and mails nothing**, in every
state that a run comes to, whichever step of the call it is that fails. -/
theorem allOrNothing_run (kind : StoreKind) (settings : Settings) (clock : Timestamp)
    (acts : List Act) :
    ((World.start clock : World kind.State).run settings acts).AllOrNothing settings :=
  (World.good_run settings (World.good_start clock) acts).allOrNothing settings

end Onboarding
