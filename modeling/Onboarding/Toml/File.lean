import Onboarding.Toml.Writer
/-!
# TOML files — tables as texts

A file is read in two steps, statements and then the table they add up to, and written
in the same two steps backwards. `statements` says a table by the values of its own keys
first and its inner tables after them; the header of an inner table is left out where
nothing but further tables would follow it.
-/

namespace Onboarding

namespace Toml

/-! ## Reading -/

/-- A document while it is read: its nodes, and the path of the table that was started
last. -/
structure Document where
  nodes : Nodes := []
  current : List String := []

namespace Document

/-- What a statement makes of a document. -/
def add (d : Document) : Statement → Option Document
  | .table path => (alterAt name path d.nodes).map fun nodes => ⟨nodes, path⟩
  | .item path => (alterAt extend path d.nodes).map fun nodes => ⟨nodes, path⟩
  | .assign path v => (within (assign v path) d.current d.nodes).map fun nodes => ⟨nodes, d.current⟩

/-- The table that statements add up to. -/
def build? (ss : List Statement) : Option (List (String × Toml)) :=
  (ss.foldlM add { }).map fun d => nodesToml d.nodes

end Document

/-- The table that a text holds. -/
def parse? (text : String) : Option (List (String × Toml)) :=
  match Statement.readAll? text with
  | none => none
  | some ss => Document.build? ss

/-! ## Writing -/

/-- Whether a value is a table. -/
def isTable : Toml → Bool
  | .table _ => true
  | _ => false

/-- Whether a value is written with headers: a table, or a list of nothing but tables. -/
def hasHeader : Toml → Bool
  | .table _ => true
  | .array items => !items.isEmpty && items.all isTable
  | _ => false

/-- The values of a table's own keys. -/
def ownValues (members : List (String × Toml)) : List Statement :=
  (members.filter fun m => !m.2.hasHeader).map fun m => .assign [m.1] m.2

/-- Whether a table has a header of its own. -/
def isShown (members : List (String × Toml)) : Bool :=
  members.isEmpty || !(ownValues members).isEmpty

mutual

/-- The statements of a value at a path, if it is written with headers. -/
def headed (path : List String) : Toml → List Statement
  | .table members =>
    (if isShown members then [.table path] else []) ++ ownValues members ++
      innerTables path members
  | .array items => if !items.isEmpty && items.all isTable then listed path items else []
  | _ => []

/-- The statements of the inner tables of a table. -/
def innerTables (path : List String) : List (String × Toml) → List Statement
  | [] => []
  | (k, v) :: rest => headed (path ++ [k]) v ++ innerTables path rest

/-- The statements of a list of tables. -/
def listed (path : List String) : List Toml → List Statement
  | [] => []
  | .table members :: rest =>
    .item path :: ownValues members ++ innerTables path members ++ listed path rest
  | _ :: rest => listed path rest

end

/-- The statements of a whole file. -/
def statements (members : List (String × Toml)) : List Statement :=
  ownValues members ++ innerTables [] members

/-- The text of a file. -/
def render (members : List (String × Toml)) : String := Statement.writeAll (statements members)

end Toml

end Onboarding
