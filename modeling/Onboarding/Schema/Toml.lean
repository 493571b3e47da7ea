import Onboarding.Schema
import Onboarding.Toml.File
/-!
# TOML records — records as tables with named members

`toToml?` writes a record as a table with its members in order; an empty option is left
out, and a word beyond the integers of a file cannot be written. `ofToml?` reads one
back: members come in any order and members of other names are passed over. A record may
also stand as a list of its members in order, and a date as one that leaves every member
out.
-/

namespace Onboarding

/-! ## Writing -/

/-- A number as an integer, if a file can hold it. -/
def Toml.ofNat? (n : Nat) : Option Toml :=
  if n < Toml.integerLimit then some (.integer n) else none

/-- Whether a value is left out where it is a member. -/
def Schema.isAbsent : {α : Type} → Schema α → α → Bool
  | _, .option _, a => a.isNone
  | _, .via base _ get _ _, b => base.isAbsent (get b)
  | _, _, _ => false

mutual

/-- A value as TOML. -/
def Schema.toToml? : {α : Type} → Schema α → α → Option Toml
  | _, .word, n => Toml.ofNat? n.toNat
  | _, .count, n => Toml.ofNat? n
  | _, .text, s => some (.text s)
  | _, .choice names, i => some (.text names[i])
  | _, .option _, none => none
  | _, .option item, some a => item.toToml? a
  | _, .list item, as => (as.mapM item.toToml?).map .array
  | _, .record fields, a => (fields.toTable? a).map .table
  | _, .via base _ get _ _, b => base.toToml? (get b)

/-- The members of a record by name. -/
def Fields.toTable? : {α : Type} → Fields α → α → Option (List (String × Toml))
  | _, .done, () => some []
  | _, .field name item _ rest, (a, b) =>
    if item.isAbsent a then rest.toTable? b
    else
      match item.toToml? a, rest.toTable? b with
      | some v, some ms => some ((name, v) :: ms)
      | _, _ => none

end

/-! ## Reading -/

/-- The number that a value is. -/
def Toml.toNat? : Toml → Option Nat
  | .integer n => if 0 ≤ n then some n.toNat else none
  | _ => none

/-- The name of a case: a text, or a table whose only member has that name and is
empty. -/
def Toml.caseName? : Toml → Option String
  | .text s => some s
  | .table [(name, .table [])] => some name
  | .table [(name, .array [])] => some name
  | _ => none

mutual

/-- The value that TOML holds. -/
def Schema.ofToml? : {α : Type} → Schema α → Toml → Option α
  | _, .word, v => v.toNat?.map UInt64.ofNat
  | _, .count, v => v.toNat?
  | _, .text, .text s => some s
  | _, .text, _ => none
  | _, .choice names, v => v.caseName?.bind names.finIdxOf?
  | _, .option item, v => (item.ofToml? v).map some
  | _, .list item, .array items => items.mapM item.ofToml?
  | _, .list _, _ => none
  | _, .record fields, .table members => fields.ofTable? members
  | _, .record fields, .array items => fields.ofTomlItems? items
  | _, .record fields, .date _ => fields.ofTable? []
  | _, .record _, _ => none
  | _, .via base make _ _ _, v => (base.ofToml? v).map make

/-- The record whose members a table has; what was left out comes from its fallback. -/
def Fields.ofTable? : {α : Type} → Fields α → List (String × Toml) → Option α
  | _, .done, _ => some ()
  | _, .field name item fallback rest, members =>
    let a := match members.lookup name with
      | some v => item.ofToml? v
      | none => fallback.or item.absent?
    match a, rest.ofTable? members with
    | some a, some b => some (a, b)
    | _, _ => none

/-- The record whose members are the items in order; what was left out at the end comes
from its fallback, and items beyond the last member are passed over. -/
def Fields.ofTomlItems? : {α : Type} → Fields α → List Toml → Option α
  | _, .done, _ => some ()
  | _, .field _ item fallback rest, items =>
    let a := match items with
      | v :: _ => item.ofToml? v
      | [] => fallback
    match a, rest.ofTomlItems? items.tail with
    | some a, some b => some (a, b)
    | _, _ => none

end

end Onboarding
