/-!
# Schemas — the layout of the records that are stored, sent and configured

A `Schema α` describes how a value of type `α` is built from words, counts and
texts: which members a record has, in which order, under which names, and what
stands in for a member that is left out. Every format (`Schema.Binary`,
`Schema.Json`, `Schema.Toml`) is defined once, over schemas, and so treats every
record alike.
-/

namespace Onboarding

mutual

/-- The layout of the values of a type. -/
inductive Schema : Type → Type 1
  /-- A number of 64 bits. -/
  | word : Schema UInt64
  /-- A number of things, stored in 64 bits. -/
  | count : Schema Nat
  | text : Schema String
  /-- One of a few named cases. -/
  | choice (names : List String) : Schema (Fin names.length)
  | option {α : Type} (item : Schema α) : Schema (Option α)
  | list {α : Type} (item : Schema α) : Schema (List α)
  | record {α : Type} (fields : Fields α) : Schema α
  /-- A type with the same values under another name. -/
  | via {α β : Type} (base : Schema α) (make : α → β) (get : β → α)
      (get_make : ∀ a, get (make a) = a) (make_get : ∀ b, make (get b) = b) : Schema β

/-- The members of a record, as nested pairs. -/
inductive Fields : Type → Type 1
  | done : Fields Unit
  /-- A member, and the value it has where it is left out. -/
  | field {α β : Type} (name : String) (item : Schema α) (fallback : Option α)
      (rest : Fields β) : Fields (α × β)

end

namespace Fields

/-- A member that has to be there. -/
abbrev required {α β : Type} (name : String) (item : Schema α) (rest : Fields β) :
    Fields (α × β) :=
  .field name item none rest

/-- A member that may be left out. -/
abbrev optional {α β : Type} (name : String) (item : Schema α) (value : α) (rest : Fields β) :
    Fields (α × β) :=
  .field name item (some value) rest

/-- The names of the members in order. -/
def names : {α : Type} → Fields α → List String
  | _, .done => []
  | _, .field name _ _ rest => name :: rest.names

/-- Room for each member of a record while it is read. -/
def Slots : {α : Type} → Fields α → Type
  | _, .done => Unit
  | _, .field (α := α) _ _ _ rest => Option α × rest.Slots

/-- No member read yet. -/
def noSlots : {α : Type} → (fs : Fields α) → fs.Slots
  | _, .done => ()
  | _, .field _ _ _ rest => Prod.mk none rest.noSlots

/-- The room of the first member. -/
def Slots.head {α β : Type} {name : String} {item : Schema α} {fallback : Option α}
    {rest : Fields β} (slots : (Fields.field name item fallback rest).Slots) : Option α :=
  Prod.fst slots

/-- The room of the other members. -/
def Slots.tail {α β : Type} {name : String} {item : Schema α} {fallback : Option α}
    {rest : Fields β} (slots : (Fields.field name item fallback rest).Slots) : rest.Slots :=
  Prod.snd slots

/-- Room for a member before room for others. -/
def Slots.cons {α β : Type} {name : String} {item : Schema α} {fallback : Option α}
    {rest : Fields β} (slot : Option α) (slots : rest.Slots) :
    (Fields.field name item fallback rest).Slots :=
  Prod.mk slot slots

end Fields

namespace Schema

/-- What stands in for a value that is left out, where no fallback is given:
an option that is left out is empty, and everything else is missed. -/
def absent? : {α : Type} → Schema α → Option α
  | _, .option _ => some none
  | _, .via base make _ _ _ => base.absent?.map make
  | _, _ => none

end Schema

end Onboarding
