import Onboarding.Toml
/-!
# TOML documents — the table that keys and headers add up to

A table comes to be in one of three ways: a header names it, a header names a table
inside it, or a dotted key passes through it. A table that a header named is complete
when the next header comes; one that was only passed through may still be named once, and
one that dotted keys made may only be added to by dotted keys. A key is given a value at
most once.
-/

namespace Onboarding

namespace Toml

/-- How a table came to be. -/
inductive TableKind where
  /-- A header named it. -/
  | named
  /-- A header named a table inside it. -/
  | passed
  /-- A dotted key passes through it. -/
  | dotted
deriving DecidableEq, Repr

/-- What stands under a key while a document is read. -/
inductive Node where
  | value (v : Toml)
  | table (kind : TableKind) (members : List (String × Node))
  /-- A list of tables that headers added one by one. -/
  | tables (items : List (List (String × Node)))

/-- The nodes of a table by key. -/
abbrev Nodes : Type := List (String × Node)

/-- The node under a key replaced by what `f` makes of it, or of its absence. -/
def alter (key : String) (f : Option Node → Option Node) : Nodes → Option Nodes
  | [] => (f none).map fun n => [(key, n)]
  | (k, n) :: rest =>
    if k = key then (f (some n)).map fun n => (k, n) :: rest
    else (alter key f rest).map ((k, n) :: ·)

/-- A node with the table it stands for changed: of a list of tables, the last. -/
def Node.enter (f : Nodes → Option Nodes) : Node → Option Node
  | .value _ => none
  | .table kind ms => (f ms).map (.table kind)
  | .tables items =>
    match items.getLast? with
    | none => none
    | some ms => (f ms).map fun ms => .tables (items.dropLast ++ [ms])

/-- A table with the one at a path changed. Tables that are missing on the way are passed
through. -/
def within (f : Nodes → Option Nodes) : List String → Nodes → Option Nodes
  | [], ms => f ms
  | k :: ks, ms => alter k (fun n => (n.getD (.table .passed [])).enter (within f ks)) ms

/-- What a header makes of the node it names. -/
def name : Option Node → Option Node
  | none => some (.table .named [])
  | some (.table .passed ms) => some (.table .named ms)
  | _ => none

/-- What a header that adds a table makes of the node it names. -/
def extend : Option Node → Option Node
  | none => some (.tables [[]])
  | some (.tables items) => some (.tables (items ++ [[]]))
  | _ => none

/-- A table with the node at a path made what `f` makes of it. -/
def alterAt (f : Option Node → Option Node) (path : List String) (ms : Nodes) : Option Nodes :=
  match path.getLast? with
  | none => none
  | some key => within (alter key f) path.dropLast ms

/-- A value under a key that has none. -/
def fresh (v : Toml) : Option Node → Option Node
  | none => some (.value v)
  | some _ => none

mutual

/-- A table with a value at a dotted key. -/
def assign (v : Toml) : List String → Nodes → Option Nodes
  | [], _ => none
  | [key], ms => alter key (fresh v) ms
  | key :: rest, ms => alter key (through v rest) ms
termination_by path => 2 * path.length

/-- What a dotted key makes of a node that it passes through. The last table it passes
through must be one that dotted keys made. -/
def through (v : Toml) : List String → Option Node → Option Node
  | rest, none => (assign v rest []).map (.table .dotted)
  | rest, some (.table .dotted ms) => (assign v rest ms).map (.table .dotted)
  | [_], some _ => none
  | _, some (.table .named _) => none
  | rest, some n => n.enter (assign v rest)
termination_by rest => 2 * rest.length + 1

end

mutual

/-- What a node stands for. -/
def Node.toToml : Node → Toml
  | .value v => v
  | .table _ ms => .table (nodesToml ms)
  | .tables items => .array (itemsToml items)

/-- What the nodes of a table stand for. -/
def nodesToml : Nodes → List (String × Toml)
  | [] => []
  | (k, n) :: rest => (k, n.toToml) :: nodesToml rest

/-- What the tables of a list stand for. -/
def itemsToml : List Nodes → List Toml
  | [] => []
  | ms :: rest => .table (nodesToml ms) :: itemsToml rest

end

/-- The table that keys between braces add up to. -/
def ofAssignments? (ms : List (List String × Toml)) : Option Toml :=
  (ms.foldlM (fun nodes (path, v) => assign v path nodes) []).map fun nodes =>
    .table (nodesToml nodes)

end Toml

end Onboarding
