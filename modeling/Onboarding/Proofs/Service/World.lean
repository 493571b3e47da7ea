import Onboarding.Proofs.Service.Books
import Onboarding.Proofs.Service.Transaction
/-!
# Worlds — the steps of a call, and the entry that it makes

A world is good if its store is sound and nobody lies in wait for the next transfer.
`Made` says that a call took a good world to a good world and made one entry in its
books. The lemmas before it say what each step of a call does: reading leaves the
world alone, a transaction changes the store only if it succeeds, and a transfer is
accepted or refused.
-/

namespace Onboarding

open StoreView

namespace World

variable {σ : Type} [StoreView σ]

/-- The books of a world. -/
def books (w : World σ) : Books where
  contents := contents w.store
  transfers := w.ledger.transfers
  refusals := w.ledger.refusals
  outbox := w.outbox
  pending := w.pending
  failing := failing w.store

/-- The store is sound and nobody interrupts a transfer. -/
structure Good (w : World σ) : Prop where
  sound : Sound w.store
  quiet : w.interruption = none

end World

/-- A call took `w` to `w'` and made an entry. -/
structure Made {σ : Type} [Store σ] [StoreView σ] (settings : Settings) (w w' : World σ)
    (entry : Entry) : Prop where
  good : w'.Good
  step : Step settings w.clock w.books entry w'.books
  clock_eq : w'.clock = w.clock
  denylist_eq : Store.isFraudDomain w'.store = Store.isFraudDomain w.store

namespace Made

variable {σ : Type} [Store σ] [StoreView σ] {settings : Settings} {w : World σ}

/-- A call that failed before it changed anything, draws aside. -/
theorem nothing (hw : w.Good) (g : Randomness) :
    Made settings w { w with random := g } .nothing :=
  ⟨⟨hw.sound, hw.quiet⟩, .nothing, rfl, rfl⟩

/-- A call that changed the store to hold `c`, and the ledger, the outbox and who waits
as the entry says. -/
theorem of_becomes (hw : w.Good) {s : σ} {g : Randomness} {l : Ledger} {mails : List Mail}
    {waiting : List Owner} {c : Contents} {entry : Entry} (h : Becomes w.store c s)
    (hstep : Step settings w.clock w.books entry
      ⟨c, l.transfers, l.refusals, mails, waiting, failing w.store⟩) :
    Made settings w
      { w with store := s, random := g, ledger := l, outbox := mails, pending := waiting }
      entry := by
  refine ⟨⟨h.sound, hw.quiet⟩, ?_, rfl, h.denylist_eq⟩
  rw [← h.contents_eq, ← h.failing_eq] at hstep
  exact hstep

end Made

namespace ServiceM

variable {σ α : Type} {w : World σ}

/-- A read leaves the world alone. -/
theorem read_cases (f : σ → Except StoreError α) (w : World σ) :
    (∃ a, f w.store = .ok a ∧ read f w = (.ok a, w)) ∨
      ∃ e, f w.store = .error e ∧ read f w = (.error (.store e), w) := by
  unfold read
  cases f w.store with
  | ok a => exact .inl ⟨a, rfl, rfl⟩
  | error e => exact .inr ⟨e, rfl, rfl⟩

theorem find_cases (f : σ → Except StoreError α) (w : World σ) :
    (∃ a?, Except.found? (f w.store) = .ok a? ∧ find f w = (.ok a?, w)) ∨
      ∃ e, Except.found? (f w.store) = .error e ∧ find f w = (.error (.store e), w) :=
  read_cases (fun s => Except.found? (f s)) w

theorem read_of_ok {f : σ → Except StoreError α} {a : α} (h : f w.store = .ok a) :
    read f w = (.ok a, w) := by
  unfold read
  rw [h]

theorem now_apply (w : World σ) : now w = (.ok w.clock, w) := rfl

theorem write_of_ok {op : StoreM σ Unit} {s : σ} (h : op w.store = (.ok (), s)) :
    write op w = (.ok (.ok ()), { w with store := s }) := by
  unfold write Store.alone
  rw [h]

/-- A write that fails changes nothing. -/
theorem write_of_error {op : StoreM σ Unit} {s : σ} {e : StoreError}
    (h : op w.store = (.error e, s)) : write op w = (.ok (.error e), w) := by
  unfold write Store.alone
  rw [h]

/-- A transaction that succeeds leaves what its body leaves; one that fails leaves the
store alone. -/
theorem tryTransaction_cases [Store σ] (body : TransactionM σ α) (w : World σ) :
    (∃ a s g, body (w.store, w.random) = (.ok a, (s, g)) ∧
        tryTransaction body w = (.ok (.ok a), { w with store := s, random := g })) ∨
      ∃ e g, (∀ a p, Store.transaction .store body (w.store, w.random) ≠ (.ok a, p)) ∧
        tryTransaction body w = (.ok (.error e), { w with random := g }) := by
  unfold tryTransaction
  rcases h : Store.transaction .store body (w.store, w.random) with ⟨r, s, g⟩
  cases r with
  | ok a => exact .inl ⟨a, s, g, Store.transaction_eq_ok h, by rw [h]⟩
  | error e =>
    have hs : s = w.store := Store.transaction_error h
    subst hs
    refine .inr ⟨e, g, fun a p hok => ?_, by rw [h]⟩
    rw [h] at hok
    cases hok

theorem transaction_cases [Store σ] (body : TransactionM σ α) (w : World σ) :
    (∃ a s g, body (w.store, w.random) = (.ok a, (s, g)) ∧
        transaction body w = (.ok a, { w with store := s, random := g })) ∨
      ∃ e g, (∀ a p, Store.transaction .store body (w.store, w.random) ≠ (.ok a, p)) ∧
        transaction body w = (.error e, { w with random := g }) := by
  unfold transaction
  rcases tryTransaction_cases body w with ⟨a, s, g, hbody, h⟩ | ⟨e, g, hbody, h⟩
  · exact .inl ⟨a, s, g, hbody, Computation.bind_of_ok h⟩
  · exact .inr ⟨e, g, hbody, Computation.bind_of_ok h⟩

/-- A transfer is accepted or refused. -/
theorem pay_cases (t : Transfer) (hw : w.interruption = none) :
    (∃ l, pay t w = (.ok (), { w with ledger := l }) ∧
        l.transfers = w.ledger.transfers ++ [t] ∧ l.refusals = w.ledger.refusals) ∨
      ∃ e l, e ≠ .interrupted ∧ pay t w = (.error (.chain e), { w with ledger := l }) ∧
        l.transfers = w.ledger.transfers ∧ l.refusals = w.ledger.refusals ++ [t] := by
  unfold pay World.pay Ledger.send
  cases hr : w.ledger.refuses t.address with
  | true => exact .inr ⟨.broadcast Ledger.injected, _, nofun, rfl, rfl, rfl⟩
  | false =>
    simp only [Bool.false_eq_true, if_false, hw]
    exact .inl ⟨_, rfl, rfl, rfl⟩

end ServiceM

end Onboarding
