import Mathlib.Data.List.Nodup
import Mathlib.Tactic.Common
import Onboarding.Toml.Document
/-!
# TOML nodes — where a path leads while a document is read

A statement changes the table at a path. A `Site` is such a place: the nodes around it, as a
function of the table that stands there. What is done at the path is done to that table and
nothing else (`Site.within_eq`), and every table that is added to a site under a new key
is the table of a site of its own, also one that is only passed through.
-/

namespace Onboarding

namespace Toml

variable {key : String} {f g : Option Node → Option Node} {ns : Nodes}

/-- The keys of the nodes of a table. -/
abbrev keys (ns : Nodes) : List String := ns.map Prod.fst

/-! ## One table -/

/-- A key that is not there is put behind the others. -/
theorem alter_of_not_mem (h : key ∉ keys ns) :
    alter key f ns = (f none).map fun n => ns ++ [(key, n)] := by
  induction ns with
  | nil => rfl
  | cons m rest ih =>
    obtain ⟨k, n⟩ := m
    obtain ⟨hne, hrest⟩ := List.ne_and_not_mem_of_not_mem_cons h
    have hk : ¬ k = key := fun e => hne e.symm
    rw [alter, if_neg hk, ih hrest, Option.map_map]
    rfl

/-- The node that was put behind the others is the one under its key. -/
theorem alter_concat (h : key ∉ keys ns) (n : Node) :
    alter key f (ns ++ [(key, n)]) = (f (some n)).map fun n => ns ++ [(key, n)] := by
  induction ns with
  | nil => simp [alter]
  | cons m rest ih =>
    obtain ⟨k, n'⟩ := m
    obtain ⟨hne, hrest⟩ := List.ne_and_not_mem_of_not_mem_cons h
    have hk : ¬ k = key := fun e => hne e.symm
    rw [List.cons_append, alter, if_neg hk, ih hrest, Option.map_map]
    rfl

/-- Values under keys of their own, as nodes. -/
def valueNodes (members : List (String × Toml)) : Nodes := members.map fun m => (m.1, .value m.2)

theorem keys_valueNodes (members : List (String × Toml)) :
    keys (valueNodes members) = members.map Prod.fst := by
  simp [valueNodes, keys]

theorem nodesToml_append (ns ns' : Nodes) :
    nodesToml (ns ++ ns') = nodesToml ns ++ nodesToml ns' := by
  induction ns with
  | nil => rfl
  | cons m rest ih =>
    obtain ⟨k, n⟩ := m
    rw [List.cons_append, nodesToml, nodesToml, ih, List.cons_append]

theorem nodesToml_valueNodes (members : List (String × Toml)) :
    nodesToml (valueNodes members) = members := by
  induction members with
  | nil => rfl
  | cons m rest ih =>
    have hrest : nodesToml (rest.map fun m => (m.1, Node.value m.2)) = rest := ih
    rw [valueNodes, List.map_cons, nodesToml, hrest, Node.toToml]

/-- A value under a key that has none is put behind the others. -/
theorem assign_of_not_mem (h : key ∉ keys ns) (v : Toml) :
    assign v [key] ns = some (ns ++ [(key, .value v)]) := by
  rw [assign, alter_of_not_mem h]
  rfl

/-- Values under keys that differ add up to the table that has them in order. -/
theorem foldlM_assign (ns : Nodes) {members : List (String × Toml)}
    (hkeys : (members.map Prod.fst).Nodup) (hnew : ∀ m ∈ members, m.1 ∉ keys ns) :
    members.foldlM (fun ns m => assign m.2 [m.1] ns) ns = some (ns ++ valueNodes members) := by
  induction members generalizing ns with
  | nil => simp [valueNodes]
  | cons m rest ih =>
    obtain ⟨hm, hrest⟩ := List.nodup_cons.1 hkeys
    have hadded := assign_of_not_mem (hnew m List.mem_cons_self) m.2
    have hnew' : ∀ m' ∈ rest, m'.1 ∉ keys (ns ++ [(m.1, .value m.2)]) := by
      intro m' hm' hmem
      have hne : m'.1 ≠ m.1 := fun e => hm (e ▸ List.mem_map_of_mem hm')
      have hold := hnew m' (List.mem_cons_of_mem m hm')
      simp only [keys, List.map_append, List.map_cons, List.map_nil, List.mem_append,
        List.mem_singleton] at hmem
      exact hmem.elim hold hne
    rw [List.foldlM_cons, hadded, Option.bind_eq_bind, Option.bind_some, ih _ hrest hnew']
    simp [valueNodes]

/-- **A table between braces is the members in it.** -/
theorem ofAssignments?_eq {members : List (String × Toml)} (hkeys : (members.map Prod.fst).Nodup) :
    ofAssignments? (members.map fun m => ([m.1], m.2)) = some (.table members) := by
  have hfold := foldlM_assign [] hkeys nofun
  have hmembers := nodesToml_valueNodes members
  unfold ofAssignments?
  rw [List.foldlM_map]
  dsimp only
  rw [hfold]
  simp [hmembers]

/-! ## Paths -/

/-- What is done at a path is done at its second part, in the table that its first part leads
to. -/
theorem within_append (f : Nodes → Option Nodes) (path rest : List String) (ns : Nodes) :
    within f (path ++ rest) ns = within (within f rest) path ns := by
  induction path generalizing ns with
  | nil => rfl
  | cons k ks ih =>
    have hks : within f (ks ++ rest) = within (within f rest) ks := funext ih
    rw [List.cons_append, within, within, hks]

/-- A table that was not there is passed through. -/
theorem within_of_not_mem {f : Nodes → Option Nodes} (h : key ∉ keys ns) :
    within f [key] ns = (f []).map fun ms => ns ++ [(key, .table .passed ms)] := by
  rw [within, alter_of_not_mem h, Option.getD_none, Node.enter, Option.map_map]
  rfl

theorem within_table {f : Nodes → Option Nodes} (h : key ∉ keys ns)
    (kind : TableKind) (ms : Nodes) :
    within f [key] (ns ++ [(key, .table kind ms)]) =
      (f ms).map fun ms => ns ++ [(key, .table kind ms)] := by
  rw [within, alter_concat h, Option.getD_some, Node.enter, Option.map_map]
  rfl

/-- Of a list of tables, the last one is entered. -/
theorem within_tables {f : Nodes → Option Nodes} (h : key ∉ keys ns) (items : List Nodes)
    (ms : Nodes) : within f [key] (ns ++ [(key, .tables (items ++ [ms]))]) =
      (f ms).map fun ms => ns ++ [(key, .tables (items ++ [ms]))] := by
  rw [within, alter_concat h, Option.getD_some, Node.enter, List.getLast?_concat,
    List.dropLast_concat, Option.map_map]
  rfl

/-- What is done at the path is done to the table `ms`, and `around` puts what comes of it in
its place. The table need not be there before: it is empty then. -/
def Leads (path : List String) (ns ms : Nodes) (around : Nodes → Nodes) : Prop :=
  ∀ f : Nodes → Option Nodes, within f path ns = (f ms).map around

/-- The place of a table at a path: the nodes around it. -/
def IsSite (path : List String) (around : Nodes → Nodes) : Prop :=
  ∀ ms, Leads path (around ms) ms around

variable {path : List String} {ms : Nodes} {around : Nodes → Nodes}

theorem isSite_nil : IsSite [] id := fun ms f => (Option.map_id' (x := f ms)).symm

theorem Leads.within_append (h : Leads path ns ms around) (f : Nodes → Option Nodes)
    (rest : List String) : within f (path ++ rest) ns = (within f rest ms).map around := by
  rw [Toml.within_append]
  exact h (within f rest)

/-- A header that makes a node under a key. -/
theorem Leads.alterAt (h : Leads path ns ms around) (key : String) :
    alterAt f (path ++ [key]) ns = (alter key f ms).map around := by
  unfold Toml.alterAt
  rw [List.getLast?_concat, List.dropLast_concat]
  exact h (alter key f)

namespace IsSite

theorem table (h : IsSite path around) (hkey : key ∉ keys ns) (kind : TableKind) :
    IsSite (path ++ [key]) fun ms => around (ns ++ [(key, .table kind ms)]) := by
  intro ms f
  rw [(h _).within_append, within_table hkey, Option.map_map]
  rfl

theorem tables (h : IsSite path around) (hkey : key ∉ keys ns) (items : List Nodes) :
    IsSite (path ++ [key]) fun ms => around (ns ++ [(key, .tables (items ++ [ms]))]) := by
  intro ms f
  rw [(h _).within_append, within_tables hkey, Option.map_map]
  rfl

end IsSite

/-- A path leads on to a table that is not there yet. -/
theorem Leads.passed (h : Leads path ns ms around) (hkey : key ∉ keys ms) :
    Leads (path ++ [key]) ns [] fun x => around (ms ++ [(key, .table .passed x)]) := by
  intro f
  rw [h.within_append, within_of_not_mem hkey, Option.map_map]
  rfl

end Toml

end Onboarding
