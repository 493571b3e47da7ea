import Onboarding.Store.Basic
/-!
# Transactions — several calls on a store that happen together or not at all

The body of a transaction works on the store and on something that belongs to the
caller, such as a source of randomness. When the body fails, the store is as it was
before, and what belongs to the caller stays as the body left it. A transaction
inside another one is undone on its own only by stores that say so
(`Store.undoesNested`).
-/

namespace Onboarding

/-- A body of a transaction: it works on a store and on a companion `γ` that no
failure takes back. -/
abbrev Body (ε σ γ : Type) := ExceptT ε (StateM (σ × γ))

namespace Body

variable {ε σ γ α : Type}

/-- Something read from the store. -/
def read (ofStore : StoreError → ε) (f : σ → Except StoreError α) : Body ε σ γ α := fun p =>
  match f p.1 with
  | .ok a => (.ok a, p)
  | .error e => (.error (ofStore e), p)

/-- A write to the store. What it changed before it failed stays, until the
transaction is undone. -/
def write (ofStore : StoreError → ε) (op : StoreM σ α) : Body ε σ γ α := fun p =>
  match op p.1 with
  | (.ok a, s) => (.ok a, (s, p.2))
  | (.error e, s) => (.error (ofStore e), (s, p.2))

/-- A step of the companion. -/
def companion (f : γ → Except ε α × γ) : Body ε σ γ α := fun p =>
  match f p.2 with
  | (r, g) => (r, (p.1, g))

end Body

namespace Store

variable {ε σ γ α : Type} [Store σ]

/-- Runs a body as a transaction. The error of a body that fails is the error of the
transaction. -/
def transaction (ofStore : StoreError → ε) (body : Body ε σ γ α) : Body ε σ γ α := fun p =>
  match canBegin p.1 with
  | .error e => (.error (ofStore e), p)
  | .ok () =>
    match body p with
    | (.ok a, p') => (.ok a, p')
    | (.error e, p') => (.error e, (p.1, p'.2))

/-- Runs a body as a transaction inside another one. -/
def nestedTransaction (ofStore : StoreError → ε) (body : Body ε σ γ α) : Body ε σ γ α := fun p =>
  match canBegin p.1 with
  | .error e => (.error (ofStore e), p)
  | .ok () =>
    match body p with
    | (.ok a, p') => (.ok a, p')
    | (.error e, p') => (.error e, (if undoesNested σ then p.1 else p'.1, p'.2))

/-- **A transaction that fails leaves the store as it was.** -/
theorem transaction_error {ofStore : StoreError → ε} {body : Body ε σ γ α} {p p' : σ × γ} {e : ε}
    (h : transaction ofStore body p = (.error e, p')) : p'.1 = p.1 := by
  unfold transaction at h
  split at h
  · cases h
    rfl
  · split at h <;> cases h
    rfl

end Store

end Onboarding
