import Onboarding.Schema
import Onboarding.Json.Draft
/-!
# JSON records — records as objects with named members

`toJson` writes a record as an object with its members in order; an empty option is
null. `ofDraft` reads one back: members come in any order, each at most once, and
members of other names are passed over. A record may also stand as an array of its
members in order, all of them but a tail that has fallbacks.

Reading reports the first fault in the order of the text, and tells a malformed
text from a well-formed one that holds something else.
-/

namespace Onboarding

/-- What stands in the way of reading a record from a JSON text. -/
inductive ReadFault where
  /-- The text is not JSON. -/
  | malformed
  /-- The text is JSON of another kind than expected. -/
  | mismatch
deriving DecidableEq, Repr

mutual

/-- A value as JSON. -/
def Schema.toJson : {α : Type} → Schema α → α → Json
  | _, .word, n => .number n.toNat
  | _, .count, n => .number n
  | _, .text, s => .text s
  | _, .choice names, i => .text names[i]
  | _, .option _, none => .null
  | _, .option item, some a => item.toJson a
  | _, .list item, as => .array (as.map item.toJson)
  | _, .record fields, a => .object (fields.toMembers a)
  | _, .via base _ get _ _, b => base.toJson (get b)

/-- The members of a record by name. -/
def Fields.toMembers : {α : Type} → Fields α → α → List (String × Json)
  | _, .done, () => []
  | _, .field name item _ rest, (a, b) => (name, item.toJson a) :: rest.toMembers b

end

namespace Draft

/-- The fault of a value that is not of the kind expected. -/
def fault : Draft → ReadFault
  | .broken | .excess | .text none => .malformed
  | _ => .mismatch

/-- The number that a word expects. -/
def word : Draft → Except ReadFault UInt64
  | .number (some n) => .ok n
  | d => .error d.fault

/-- The text that a text expects. -/
def string : Draft → Except ReadFault String
  | .text (some s) => .ok s
  | d => .error d.fault

/-- The name of a case: a text, or an object whose only member has that name and is
null. -/
def caseName : Draft → Except ReadFault String
  | .text (some s) => .ok s
  | .object [(name, .null)] true => .ok name
  | d => .error d.fault

end Draft

/-- A closed list of values, or a fault behind its last one. -/
def Draft.closing {α : Type} (closed : Bool) (a : α) : Except ReadFault α :=
  if closed then .ok a else .error .malformed

/-- The record of the members read; what was left out comes from its fallback. -/
def Fields.ofSlots : {α : Type} → (fs : Fields α) → fs.Slots → Except ReadFault α
  | _, .done, _ => .ok ()
  | _, .field _ item fallback rest, slots =>
    match slots.head.or (fallback.or item.absent?) with
    | none => .error .mismatch
    | some a => (rest.ofSlots slots.tail).map fun b => (a, b)

mutual

/-- The value that a draft holds. -/
def Schema.ofDraft : {α : Type} → Schema α → Draft → Except ReadFault α
  | _, .word, d => d.word
  | _, .count, d => d.word.map UInt64.toNat
  | _, .text, d => d.string
  | _, .choice names, d =>
    match d.caseName with
    | .error e => .error e
    | .ok name =>
      match names.finIdxOf? name with
      | none => .error .mismatch
      | some i => .ok i
  | _, .option _, .null => .ok none
  | _, .option item, d => (item.ofDraft d).map some
  | _, .list item, .array items closed =>
    match items.mapM item.ofDraft with
    | .error e => .error e
    | .ok as => Draft.closing closed as
  | _, .list _, d => .error d.fault
  | _, .record fields, .object members closed =>
    match members.foldlM (fun slots (name, d) => fields.place name d slots) fields.noSlots with
    | .error e => .error e
    | .ok slots =>
      match Draft.closing closed slots with
      | .error e => .error e
      | .ok slots => fields.ofSlots slots
  | _, .record fields, .array items closed => fields.ofItems closed items
  | _, .record _, d => .error d.fault
  | _, .via base make _ _ _, d => (base.ofDraft d).map make

/-- A member put into its slot. A second member of one name is refused, and one of
another name only has to be well-formed. -/
def Fields.place : {α : Type} → (fs : Fields α) → String → Draft → fs.Slots →
    Except ReadFault fs.Slots
  | _, .done, _, d, slots => Draft.closing d.wellFormed slots
  | _, .field name item _ rest, key, d, slots =>
    if name = key then
      if slots.head.isSome then .error .mismatch
      else (item.ofDraft d).map fun a => .cons (some a) slots.tail
    else (rest.place key d slots.tail).map fun others => .cons slots.head others

/-- The record whose members are the items in order. -/
def Fields.ofItems : {α : Type} → Fields α → Bool → List Draft → Except ReadFault α
  | _, .done, closed, [] => Draft.closing closed ()
  | _, .done, _, _ :: _ => .error .malformed
  | _, .field _ item _ rest, closed, d :: ds =>
    match item.ofDraft d with
    | .error e => .error e
    | .ok a => (rest.ofItems closed ds).map fun b => (a, b)
  | _, .field _ _ fallback rest, closed, [] =>
    match Draft.closing closed () with
    | .error e => .error e
    | .ok () =>
      match fallback with
      | none => .error .mismatch
      | some a => (rest.ofItems closed []).map fun b => (a, b)

end

/-- The value at the front of a JSON text, whatever follows it. -/
def Schema.ofJsonFront {α : Type} (s : Schema α) (text : String) : Except ReadFault α :=
  s.ofDraft (Draft.ofText text).1

/-- The value that a whole JSON text holds. -/
def Schema.ofJson {α : Type} (s : Schema α) (text : String) : Except ReadFault α :=
  match Draft.ofText text with
  | (d, rest) =>
    match s.ofDraft d with
    | .error e => .error e
    | .ok a => Draft.closing ((rest.map Draft.skipSpace) == some []) a

end Onboarding
