/-!
# Store errors — how a call on the store can fail

The texts name the key or the state that a call met. `damaged` is the one failure
that is no answer: an index holds a key that no writer of the store produces, and the
call breaks off.
-/

namespace Onboarding

/-- Why a call on the store failed. -/
inductive StoreError where
  | notFound (key : String)
  | duplicate (key : String)
  | conflict (state : String)
  | backend (reason : String)
  | serialization (reason : String)
  | aborted
  /-- An index key too short to hold an owner: the call breaks off. -/
  | damaged
deriving DecidableEq, Repr

namespace StoreError

/-- The wording of each failure. -/
def message : StoreError → String
  | notFound key => "key not found: " ++ key
  | duplicate key => "duplicate key: " ++ key
  | conflict state => "conflicting state: " ++ state
  | backend reason => "storage backend error: " ++ reason
  | serialization reason => "serialization error: " ++ reason
  | aborted => "transaction rolled back"
  | damaged => "damaged index"

end StoreError

/-- A result or nothing, where only the absence of a key counts as nothing. -/
def Except.found? {α : Type} : Except StoreError α → Except StoreError (Option α)
  | .ok a => .ok (some a)
  | .error (.notFound _) => .ok none
  | .error e => .error e

end Onboarding
