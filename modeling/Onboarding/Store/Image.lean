import Onboarding.Store.Indexed
import Onboarding.Text.Hex
import Onboarding.Text.Split
/-!
# Store images — a store as lines of text

An image has a line for each entry: its table, its key and its value, the last two in
hexadecimal. It is what a directory keeps of a store between two runs.
-/

namespace Onboarding

namespace IndexedStore

/-- The line of an entry. -/
def entryLine (name : TableName) (key value : List UInt8) : String :=
  name.text ++ " " ++ Hex.encode key ++ " " ++ Hex.encode value

/-- The lines of a store. -/
def toLines (s : IndexedStore) : List String :=
  TableName.all.flatMap fun name =>
    (s.table name).toList.map fun (key, value) => entryLine name key value

/-- A store with the entry of a line. -/
def addLine (s : IndexedStore) (line : String) : Option IndexedStore :=
  match (splitAll ' ' line.toList).map String.ofList with
  | [name, key, value] => do
    let name ← TableName.ofText? name
    let key ← Hex.decode key
    let value ← Hex.decode value
    return s.setTable name ((s.table name).insert key value)
  | _ => none

/-- The store of a list of lines. -/
def ofLines? (lines : List String) : Option IndexedStore :=
  lines.foldlM addLine ⟨∅, ∅, ∅, ∅, ∅, ∅, ∅⟩

end IndexedStore

end Onboarding
