import Onboarding.Proofs.Store.Kind
import Onboarding.Store.Call
/-!
# Atomicity — transactions inside transactions

The body of a transaction may do anything with what the store answers: go on, fail, or open
another transaction and handle its error. A `Script` is such a body, and `Script.run` runs
it on the state that its transaction works on. What is left of it should be its own calls
and those of the inner transactions that succeeded (`Script.kept`), one after the other.

A store is told of an error only that the transaction is off; the caller is handed the
error itself, which was noted before (`withTx_eq`). So an outermost transaction that fails
gives back its error and the state it began with, on every store. An inner one does so where
the store undoes it. The indexed store does not, and there all depends on whether an inner
transaction that fails had changed anything (`atomic_iff`).
-/

namespace Onboarding

/-- Where a transaction is opened: on the store itself or inside another one. -/
inductive Depth where
  | outer
  | inner
deriving DecidableEq, Repr

namespace Store

variable {ε σ γ α : Type} [Store σ]

/-- A transaction as the store offers it: of its body it learns whether it failed. -/
def inTx : Depth → Body StoreError σ γ Unit → Body StoreError σ γ Unit
  | .outer => transaction id
  | .inner => nestedTransaction id

/-- Whether a transaction that fails is undone on its own. -/
def undoes (σ : Type) [Store σ] : Depth → Bool
  | .outer => true
  | .inner => undoesNested σ

/-- A body that notes its outcome for the caller and tells the store no more than whether
to go through with it. -/
def noting (body : Body ε σ γ α) : Body StoreError σ (γ × Option (Except ε α)) Unit := fun p =>
  match body (p.1, p.2.1) with
  | (.ok a, (s, g)) => (.ok (), (s, (g, some (.ok a))))
  | (.error e, (s, g)) => (.error .aborted, (s, (g, some (.error e))))

/-- What the caller is handed: the noted error if there is one, otherwise the error of the
transaction itself, otherwise the noted value. -/
def handBack (ofStore : StoreError → ε) :
    Except StoreError Unit → Option (Except ε α) → Except ε α
  | _, some (.error e) => .error e
  | .error e, _ => .error (ofStore e)
  | .ok (), some (.ok a) => .ok a
  | .ok (), none => .error (ofStore (.backend "transaction body did not run"))

/-- A transaction whose body has values and errors of its own. -/
def withTx (d : Depth) (ofStore : StoreError → ε) (body : Body ε σ γ α) : Body ε σ γ α := fun p =>
  match inTx d (noting body) (p.1, (p.2, none)) with
  | (committed, (s, (g, outcome))) => (handBack ofStore committed outcome, (s, g))

/-- **What a transaction comes to**: its body's own value or error, whichever way it takes
through the store. -/
theorem withTx_eq (d : Depth) (ofStore : StoreError → ε) (body : Body ε σ γ α) (p : σ × γ) :
    withTx d ofStore body p =
      match canBegin p.1 with
      | .error e => (.error (ofStore e), p)
      | .ok () =>
        match body p with
        | (.ok a, p') => (.ok a, p')
        | (.error e, p') => (.error e, (if undoes σ d then p.1 else p'.1, p'.2)) := by
  rcases hbegin : canBegin p.1 with e | _
  · cases d <;> simp only [withTx, inTx, transaction, nestedTransaction, hbegin, handBack, id]
  · rcases hbody : body p with ⟨e | a, p'⟩ <;> cases d <;>
      simp only [withTx, inTx, transaction, nestedTransaction, noting, hbegin, hbody, handBack,
        undoes, if_true]
    -- the last goal differs from this in how it is decided
    rfl

/-- The transactions of the service are such transactions. -/
theorem withTx_outer (ofStore : StoreError → ε) (body : Body ε σ γ α) :
    withTx .outer ofStore body = transaction ofStore body :=
  funext fun p => withTx_eq .outer ofStore body p

theorem withTx_inner (ofStore : StoreError → ε) (body : Body ε σ γ α) :
    withTx .inner ofStore body = nestedTransaction ofStore body :=
  funext fun p => withTx_eq .inner ofStore body p

/-- A transaction whose body has no companion. -/
def attempt (d : Depth) (ofStore : StoreError → ε) (body : σ → Except ε α × σ) (s : σ) :
    Except ε α × σ :=
  let plain : Body ε σ Unit α := fun p => ((body p.1).1, ((body p.1).2, ()))
  ((withTx d ofStore plain (s, ())).1, (withTx d ofStore plain (s, ())).2.1)

variable {d : Depth} {ofStore : StoreError → ε} {body : σ → Except ε α × σ} {s s' : σ}

/-- A transaction that cannot begin does not run its body. -/
theorem attempt_of_not_canBegin {e : StoreError} (hbegin : canBegin s = .error e) :
    attempt d ofStore body s = (.error (ofStore e), s) := by
  simp only [attempt, withTx_eq, hbegin]

theorem attempt_of_ok {a : α} (hbegin : canBegin s = .ok ()) (hbody : body s = (.ok a, s')) :
    attempt d ofStore body s = (.ok a, s') := by
  simp only [attempt, withTx_eq, hbegin, hbody]

theorem attempt_of_error {e : ε} (hbegin : canBegin s = .ok ())
    (hbody : body s = (.error e, s')) :
    attempt d ofStore body s = (.error e, if undoes σ d then s else s') := by
  simp only [attempt, withTx_eq, hbegin, hbody]

end Store

/-- The body of a transaction: what it does next depends on what it was answered. Inner
transactions have values and errors of their own. -/
inductive Script : Type → Type → Type 1
  | done {ε α : Type} (r : Except ε α) : Script ε α
  /-- A call that is no transaction. -/
  | call {ε α : Type} (c : StoreCall) (next : Except StoreError StoreReply → Script ε α) :
    Script ε α
  /-- An inner transaction, whose error may be handled. -/
  | nest {ε α δ β : Type} (ofStore : StoreError → δ) (body : Script δ β)
      (next : Except δ β → Script ε α) : Script ε α

namespace StoreCall

variable {σ : Type} [Store σ]

/-- The state after these calls, one after the other, whatever they answer. -/
def replay (calls : List StoreCall) (s : σ) : σ := calls.foldl (fun s c => (simple c s).2) s

theorem replay_append (calls calls' : List StoreCall) (s : σ) :
    replay (calls ++ calls') s = replay calls' (replay calls s) := List.foldl_append

end StoreCall

namespace Script

variable {σ : Type} [Store σ]

/-- Runs a body on the state that its transaction works on. -/
def run : {ε α : Type} → Script ε α → σ → Except ε α × σ
  | _, _, .done r, s => (r, s)
  | _, _, .call c next, s => (next (c.simple s).1).run (c.simple s).2
  | _, _, .nest ofStore body next, s =>
    (next (Store.attempt .inner ofStore body.run s).1).run
      (Store.attempt .inner ofStore body.run s).2

/-- The calls that should be left of a body: its own, and those of its inner transactions
that succeeded. -/
def kept : {ε α : Type} → Script ε α → σ → List StoreCall
  | _, _, .done _, _ => []
  | _, _, .call c next, s => c :: (next (c.simple s).1).kept (c.simple s).2
  | _, _, .nest ofStore body next, s =>
    (if (Store.attempt .inner ofStore body.run s).1.isOk then body.kept s else []) ++
      (next (Store.attempt .inner ofStore body.run s).1).kept
        (Store.attempt .inner ofStore body.run s).2

/-- What is said of a transaction with some body, opened in some state. -/
abbrev Property (σ : Type) : Type 1 :=
  ∀ {ε α : Type}, (StoreError → ε) → Script ε α → σ → Prop

/-- `P` is so of every inner transaction that a body comes to open, wherever it is opened. -/
def Each (P : Property σ) : {ε α : Type} → Script ε α → σ → Prop
  | _, _, .done _, _ => True
  | _, _, .call c next, s => (next (c.simple s).1).Each P (c.simple s).2
  | _, _, .nest ofStore body next, s =>
    (Store.canBegin s = .ok () → P ofStore body s ∧ body.Each P s) ∧
      (next (Store.attempt .inner ofStore body.run s).1).Each P
        (Store.attempt .inner ofStore body.run s).2

/-- A transaction that fails gives back its error and the state it was opened in. -/
def Restores (d : Depth) : Property σ := fun ofStore body s =>
  ∀ e s', body.run s = (.error e, s') → Store.attempt d ofStore body.run s = (.error e, s)

/-- A body that fails has changed nothing. -/
def Harmless : Property σ := fun _ body s => ∀ e s', body.run s = (.error e, s') → s' = s

/-- A transaction that succeeds gives back its value, and leaves the calls of its body
without those of inner transactions that failed. -/
def Leaves (d : Depth) : Property σ := fun ofStore body s =>
  ∀ a s', body.run s = (.ok a, s') →
    Store.attempt d ofStore body.run s = (.ok a, StoreCall.replay (body.kept s) s)

/-- All or nothing. -/
def AllOrNothing (d : Depth) : Property σ := fun ofStore body s =>
  Restores d ofStore body s ∧ Leaves d ofStore body s

/-- A transaction is atomic at every depth: it is all or nothing, and so is every one inside
it. -/
def Atomic {ε α : Type} (ofStore : StoreError → ε) (body : Script ε α) (s : σ) : Prop :=
  Store.canBegin s = .ok () →
    AllOrNothing .outer ofStore body s ∧ body.Each (AllOrNothing .inner) s

variable {ε α : Type} {P Q : Property σ} {d : Depth} {ofStore : StoreError → ε}
  {body : Script ε α} {s : σ}

/-- What follows for a transaction from what is so of it and of those inside it. -/
theorem Each.imp (h : body.Each P s)
    (himp : ∀ {ε α : Type} (ofStore : StoreError → ε) (body : Script ε α) (s : σ),
      Store.canBegin s = .ok () → P ofStore body s → body.Each P s → Q ofStore body s) :
    body.Each Q s := by
  induction body generalizing s with
  | done r => trivial
  | call c next ih => exact ih _ h
  | nest ofStore body next ihbody ih =>
    refine ⟨fun hbegin => ?_, ih _ h.2⟩
    obtain ⟨hbody, hinner⟩ := h.1 hbegin
    exact ⟨himp ofStore body s hbegin hbody hinner, ihbody hinner⟩

theorem each_true : body.Each (fun _ _ (_ : σ) => True) s := by
  induction body generalizing s with
  | done r => trivial
  | call c next ih => exact ih _
  | nest ofStore body next ihbody ih => exact ⟨fun _ => ⟨trivial, ihbody⟩, ih _⟩

/-! ## What is left of a body -/

/-- **What is left of a body** whose inner transactions restore what they fail over is what
should be left. -/
theorem run_eq_replay (h : body.Each (Restores .inner) s) :
    (body.run s).2 = StoreCall.replay (body.kept s) s := by
  induction body generalizing s with
  | done r => rfl
  | call c next ih => exact ih _ h
  | nest ofStore body next ihbody ih =>
    rw [run, kept, StoreCall.replay_append, ih _ h.2]
    congr 1
    rcases hbegin : Store.canBegin s with e | _
    · rw [Store.attempt_of_not_canBegin hbegin]
      rfl
    obtain ⟨hrestores, hinner⟩ := h.1 hbegin
    rcases hrun : body.run s with ⟨e | b, s'⟩
    · rw [hrestores e s' hrun]
      rfl
    · rw [Store.attempt_of_ok hbegin hrun, ← show (body.run s).2 = s' by rw [hrun], ihbody hinner]
      rfl

theorem leaves_of_each (hbegin : Store.canBegin s = .ok ()) (h : body.Each (Restores .inner) s) :
    Leaves d ofStore body s := by
  intro a s' hrun
  rw [Store.attempt_of_ok hbegin hrun, ← run_eq_replay h, hrun]

/-- A transaction that is undone restores. -/
theorem restores_of_undoes (hbegin : Store.canBegin s = .ok ())
    (hundoes : Store.undoes σ d = true) : Restores d ofStore body s := by
  intro e s' hrun
  rw [Store.attempt_of_error hbegin hrun, if_pos hundoes]

/-- One that is not undone restores what its body did not change. -/
theorem restores_iff_harmless (hbegin : Store.canBegin s = .ok ())
    (hundoes : Store.undoes σ d = false) : Restores d ofStore body s ↔ Harmless ofStore body s := by
  refine forall_congr' fun e => forall_congr' fun s' => forall_congr' fun hrun => ?_
  rw [Store.attempt_of_error hbegin hrun, hundoes]
  simp

/-- A transaction is atomic if and only if those inside it restore. -/
theorem atomic_iff_each (hbegin : Store.canBegin s = .ok ()) :
    body.Atomic ofStore s ↔ body.Each (Restores .inner) s := by
  constructor
  · intro h
    exact (h hbegin).2.imp fun _ _ _ _ hall _ => hall.1
  · intro h _
    refine ⟨⟨restores_of_undoes hbegin rfl, leaves_of_each hbegin h⟩, ?_⟩
    exact h.imp fun _ _ _ hbegin hrestores hinner => ⟨hrestores, leaves_of_each hbegin hinner⟩

/-- **Transactions are atomic at every depth**, whatever their bodies do and however they
are nested, in the store that is kept in memory always, and in the indexed store if and only
if the inner transactions that fail have changed nothing. -/
theorem atomic_iff (kind : StoreKind) {ε α : Type} (ofStore : StoreError → ε)
    (body : Script ε α) (s : kind.State) :
    body.Atomic ofStore s ↔ (kind = .indexed → body.Each Harmless s) := by
  rcases hbegin : Store.canBegin s with e | _
  · -- only a transaction in memory can be kept from beginning
    cases kind with
    | table => exact iff_of_true (fun hbegin' => nomatch hbegin.symm.trans hbegin') nofun
    | indexed => cases hbegin
  rw [atomic_iff_each hbegin]
  cases kind with
  | table =>
    exact iff_of_true (each_true.imp fun _ _ _ hbegin _ _ => restores_of_undoes hbegin rfl) nofun
  | indexed =>
    rw [forall_prop_of_true rfl]
    constructor <;> intro h
    · exact h.imp fun _ _ _ hbegin hrestores _ => (restores_iff_harmless hbegin rfl).1 hrestores
    · exact h.imp fun _ _ _ hbegin hharmless _ => (restores_iff_harmless hbegin rfl).2 hharmless

/-- Puts a domain on the denylist and fails. -/
def listing : Script StoreError Unit :=
  .call (.putFraudDomain "spam.com") fun _ => .done (.error .aborted)

/-- Goes on after an inner transaction that fails. -/
def handling : Script StoreError Unit := .nest id listing fun _ => .done (.ok ())

/-- The domain stays on the denylist of the indexed store. -/
theorem not_atomic_handling : ¬ handling.Atomic id (Store.empty : StoreKind.indexed.State) := by
  intro h
  have hrestores := ((h rfl).2.1 rfl).1.1 .aborted _ rfl
  have hlisted : Store.isFraudDomain
      (Store.attempt .inner id listing.run IndexedStore.empty).2 "spam.com" = .ok true := by
    decide +kernel
  have hempty : Store.isFraudDomain IndexedStore.empty "spam.com" = .ok false := by
    decide +kernel
  have hsame := congrArg (fun p => Store.isFraudDomain (Prod.snd p) "spam.com") hrestores
  cases hlisted.symm.trans (hsame.trans hempty)

end Script

end Onboarding
