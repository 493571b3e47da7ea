import Onboarding.Proofs.Store.Indexed
import Onboarding.Proofs.Store.Table
/-!
# Kinds — the two stores under one name

What is claimed of every store is claimed of every `StoreKind`: the store kept in
memory and the one kept in tables of bytes. Both are lawful.
-/

namespace Onboarding

/-- The stores that the service runs on. -/
inductive StoreKind where
  /-- Records kept in memory. -/
  | table
  /-- Records kept as bytes, with their indexes. -/
  | indexed
deriving DecidableEq, Repr

namespace StoreKind

/-- The states of a store of this kind. -/
def State : StoreKind → Type
  | table => TableStore
  | indexed => IndexedStore

instance (kind : StoreKind) : Store kind.State :=
  match kind with
  | table => inferInstanceAs (Store TableStore)
  | indexed => inferInstanceAs (Store IndexedStore)

instance (kind : StoreKind) : LawfulStore kind.State :=
  match kind with
  | table => inferInstanceAs (LawfulStore TableStore)
  | indexed => inferInstanceAs (LawfulStore IndexedStore)

end StoreKind

end Onboarding
