import Mathlib.Tactic.Common
import Onboarding.Proofs.Results
import Onboarding.Proofs.Toml.Number
import Onboarding.Toml.File
/-!
# TOML ranges — no integer that is read is too large to be written

The reader refuses integers beyond 63 bits, in every base, so each integer in a table that is
read can be written again (`inRange_of_parse?`). `InRange` is followed from the values through
the nodes that the statements of a file add up to: a statement puts no other integers into a
document than those of its value.
-/

namespace Onboarding

namespace Toml

/-- No integer in a value is beyond those of a file. -/
inductive InRange : Toml → Prop
  | text (s : String) : InRange (.text s)
  | integer {n : Int} : IsInteger n → InRange (.integer n)
  | float (spelling : String) : InRange (.float spelling)
  | bool (b : Bool) : InRange (.bool b)
  | date (spelling : String) : InRange (.date spelling)
  | array {items : List Toml} : (∀ v ∈ items, InRange v) → InRange (.array items)
  | table {members : List (String × Toml)} : (∀ m ∈ members, InRange m.2) →
      InRange (.table members)

/-! ## Nodes -/

theorem nodesToml_eq (ns : Nodes) : nodesToml ns = ns.map fun m => (m.1, m.2.toToml) := by
  induction ns with
  | nil => rfl
  | cons m rest ih =>
    obtain ⟨k, n⟩ := m
    rw [nodesToml, ih, List.map_cons]

theorem itemsToml_eq (items : List Nodes) :
    itemsToml items = items.map fun ns => .table (nodesToml ns) := by
  induction items with
  | nil => rfl
  | cons ns rest ih => rw [itemsToml, ih, List.map_cons]

/-- No integer in the nodes of a table is beyond those of a file. -/
def NodesInRange (ns : Nodes) : Prop := ∀ m ∈ ns, m.2.toToml.InRange

/-- A change of a table that brings no integers beyond those of a file. -/
def KeepsNodes (f : Nodes → Option Nodes) : Prop :=
  ∀ ns ns', NodesInRange ns → f ns = some ns' → NodesInRange ns'

/-- A change of what stands under a key that brings no integers beyond those of a file. -/
def KeepsNode (f : Option Node → Option Node) : Prop :=
  ∀ n n', (∀ m ∈ n, m.toToml.InRange) → f n = some n' → n'.toToml.InRange

variable {ns : Nodes} {v : Toml}

theorem nodesInRange_nil : NodesInRange [] := fun _ hm => absurd hm List.not_mem_nil

theorem inRange_table_iff (kind : TableKind) :
    (Node.table kind ns).toToml.InRange ↔ NodesInRange ns := by
  rw [Node.toToml, nodesToml_eq]
  constructor
  · intro h m hm
    cases h with
    | table h => exact h _ (List.mem_map_of_mem (f := fun m => (m.1, m.2.toToml)) hm)
  · intro h
    refine .table fun m hm => ?_
    obtain ⟨m', hm', rfl⟩ := List.mem_map.1 hm
    exact h m' hm'

theorem inRange_tables_iff {items : List Nodes} :
    (Node.tables items).toToml.InRange ↔ ∀ ns ∈ items, NodesInRange ns := by
  rw [Node.toToml, itemsToml_eq]
  constructor
  · intro h ns hns
    cases h with
    | array h =>
      have htable := h _ (List.mem_map_of_mem (f := fun ns => Toml.table (nodesToml ns)) hns)
      exact (inRange_table_iff .named).1 htable
  · intro h
    refine .array fun v hv => ?_
    obtain ⟨ns, hns, rfl⟩ := List.mem_map.1 hv
    exact (inRange_table_iff .named).2 (h ns hns)

theorem KeepsNode.alter {f : Option Node → Option Node} (hf : KeepsNode f) (key : String) :
    KeepsNodes (alter key f) := by
  intro ns
  induction ns with
  | nil =>
    intro ns' _ h
    obtain ⟨n, hn, rfl⟩ := Option.map_eq_some_iff.1 h
    intro m hm
    rw [List.mem_singleton.1 hm]
    exact hf none n nofun hn
  | cons m rest ih =>
    obtain ⟨k, n⟩ := m
    intro ns' hns h
    have hn : n.toToml.InRange := hns (k, n) List.mem_cons_self
    have hrest : NodesInRange rest := fun m hm => hns m (List.mem_cons_of_mem _ hm)
    rw [Toml.alter] at h
    split at h
    · obtain ⟨n', hn', rfl⟩ := Option.map_eq_some_iff.1 h
      have hkept := hf (some n) n' (fun m hm => Option.some.inj hm ▸ hn) hn'
      intro m hm
      rcases List.mem_cons.1 hm with rfl | hm
      · exact hkept
      · exact hrest m hm
    · obtain ⟨rest', hrest', rfl⟩ := Option.map_eq_some_iff.1 h
      have hkept := ih rest' hrest hrest'
      intro m hm
      rcases List.mem_cons.1 hm with rfl | hm
      · exact hn
      · exact hkept m hm

namespace KeepsNodes

variable {f : Nodes → Option Nodes}

theorem enter (hf : KeepsNodes f) {n n' : Node} (hn : n.toToml.InRange) (h : n.enter f = some n') :
    n'.toToml.InRange := by
  cases n with
  | value v => cases h
  | table kind ns =>
    obtain ⟨ns', hns', rfl⟩ := Option.map_eq_some_iff.1 h
    exact (inRange_table_iff _).2 (hf ns ns' ((inRange_table_iff _).1 hn) hns')
  | tables items =>
    have hitems := inRange_tables_iff.1 hn
    rw [Node.enter] at h
    split at h
    · cases h
    · rename_i last hlast
      obtain ⟨last', hlast', rfl⟩ := Option.map_eq_some_iff.1 h
      have hkept := hf last last' (hitems last (List.mem_of_getLast? hlast)) hlast'
      refine inRange_tables_iff.2 fun ns hns => ?_
      rcases List.mem_append.1 hns with hns | hns
      · exact hitems ns ((List.dropLast_subset items) hns)
      · rw [List.mem_singleton.1 hns]
        exact hkept

theorem within (hf : KeepsNodes f) (path : List String) : KeepsNodes (within f path) := by
  induction path with
  | nil => exact hf
  | cons k ks ih =>
    refine KeepsNode.alter (fun n n' hn h => ?_) k
    cases n with
    | none => exact ih.enter (n := .table .passed []) ((inRange_table_iff _).2 nodesInRange_nil) h
    | some n => exact ih.enter (hn n rfl) h

end KeepsNodes

theorem keepsNode_name : KeepsNode name := by
  intro n n' hn h
  unfold name at h
  split at h
  · cases h
    exact (inRange_table_iff _).2 nodesInRange_nil
  · cases h
    exact (inRange_table_iff _).2 ((inRange_table_iff _).1 (hn _ rfl))
  · cases h

theorem keepsNode_extend : KeepsNode extend := by
  intro n n' hn h
  unfold extend at h
  split at h
  · cases h
    exact inRange_tables_iff.2 fun ns hns => by
      rw [List.mem_singleton.1 hns]
      nofun
  · rename_i items
    cases h
    refine inRange_tables_iff.2 fun ns hns => ?_
    rcases List.mem_append.1 hns with hns | hns
    · exact inRange_tables_iff.1 (hn _ rfl) ns hns
    · rw [List.mem_singleton.1 hns]
      nofun
  · cases h

theorem KeepsNode.alterAt {f : Option Node → Option Node} (hf : KeepsNode f) (path : List String) :
    KeepsNodes (alterAt f path) := by
  intro ns ns' hns h
  unfold Toml.alterAt at h
  split at h
  · cases h
  · exact (hf.alter _).within _ ns ns' hns h

theorem keepsNode_fresh (hv : v.InRange) : KeepsNode (fresh v) := by
  intro n n' _ h
  cases n with
  | none =>
    cases h
    exact hv
  | some n => cases h

theorem KeepsNodes.through {path : List String} (hassign : KeepsNodes (assign v path)) :
    KeepsNode (through v path) := by
  intro n n' hn h
  unfold Toml.through at h
  split at h
  · obtain ⟨ns', hns', rfl⟩ := Option.map_eq_some_iff.1 h
    exact (inRange_table_iff _).2 (hassign [] ns' nodesInRange_nil hns')
  · rename_i ns
    obtain ⟨ns', hns', rfl⟩ := Option.map_eq_some_iff.1 h
    exact (inRange_table_iff _).2 (hassign ns ns' ((inRange_table_iff _).1 (hn _ rfl)) hns')
  · cases h
  · cases h
  · exact hassign.enter (hn _ rfl) h

/-- A value at a dotted key, part by part: what a part passes through keeps what the rest of the
key does. -/
theorem keepsNodes_assign (hv : v.InRange) (path : List String) : KeepsNodes (assign v path) := by
  induction path with
  | nil =>
    intro ns ns' _ h
    rw [assign] at h
    cases h
  | cons key rest ih =>
    cases rest with
    | nil =>
      have hlast : assign v [key] = alter key (fresh v) := funext fun ns => by rw [assign]
      rw [hlast]
      exact (keepsNode_fresh hv).alter key
    | cons key' rest =>
      have hthrough : assign v (key :: key' :: rest) = alter key (through v (key' :: rest)) :=
        funext fun ns => by
          rw [assign]
          exact List.cons_ne_nil key' rest
      rw [hthrough]
      exact ih.through.alter key

/-! ## Documents -/

/-- No integer in the value of a statement is beyond those of a file. -/
def Statement.InRange : Statement → Prop
  | .assign _ v => v.InRange
  | _ => True

theorem Document.inRange_add {d d' : Document} {s : Statement} (hs : s.InRange)
    (hd : NodesInRange d.nodes) (h : d.add s = some d') : NodesInRange d'.nodes := by
  cases s with
  | table path =>
    obtain ⟨ns, hns, heq⟩ := Option.map_eq_some_iff.1 h
    rw [← heq]
    exact keepsNode_name.alterAt path _ ns hd hns
  | item path =>
    obtain ⟨ns, hns, heq⟩ := Option.map_eq_some_iff.1 h
    rw [← heq]
    exact keepsNode_extend.alterAt path _ ns hd hns
  | assign path v =>
    obtain ⟨ns, hns, heq⟩ := Option.map_eq_some_iff.1 h
    rw [← heq]
    exact (keepsNodes_assign hs path).within d.current _ ns hd hns

theorem Document.inRange_build? {ss : List Statement} {members : List (String × Toml)}
    (hss : ∀ s ∈ ss, s.InRange) (h : build? ss = some members) : (Toml.table members).InRange := by
  obtain ⟨d, hd, rfl⟩ := Option.map_eq_some_iff.1 h
  have hnodes : NodesInRange d.nodes :=
    foldlM_keeps (P := fun d => NodesInRange d.nodes)
      (fun s hs _ _ hd => inRange_add (hss s hs) hd) nodesInRange_nil hd
  exact (inRange_table_iff .named).2 hnodes

theorem inRange_ofAssignments? {ms : List (List String × Toml)} (hms : ∀ m ∈ ms, m.2.InRange)
    (h : ofAssignments? ms = some v) : v.InRange := by
  obtain ⟨ns, hns, rfl⟩ := Option.map_eq_some_iff.1 h
  have hnodes : NodesInRange ns :=
    foldlM_keeps (P := NodesInRange)
      (fun m hm ns ns' hns h => keepsNodes_assign (hms m hm) m.1 ns ns' hns h)
      nodesInRange_nil hns
  exact (inRange_table_iff .named).2 hnodes

/-! ## Values -/

variable {cs rest : List Char}

theorem isInteger_of_basedInteger? {base : Nat} {n : Int}
    (h : basedInteger? base cs = some (n, rest)) : IsInteger n := by
  unfold basedInteger? at h
  obtain ⟨⟨ds, r⟩, -, h⟩ := Option.bind_eq_some_iff.1 h
  dsimp only at h
  split at h
  · cases h
    constructor <;> omega
  · cases h

theorem isInteger_of_integer? {n : Int} (h : integer? cs = some (n, rest)) : IsInteger n := by
  have hpos : 0 < integerLimit := by decide
  unfold integer? at h
  split at h
  · exact isInteger_of_basedInteger? h
  · exact isInteger_of_basedInteger? h
  · exact isInteger_of_basedInteger? h
  · dsimp only at h
    obtain ⟨⟨ds, r⟩, -, h⟩ := Option.bind_eq_some_iff.1 h
    dsimp only at h
    split at h <;> split at h <;> cases h <;> constructor <;> omega

theorem inRange_number? (h : number? cs = some (v, rest)) : v.InRange := by
  unfold number? at h
  split at h
  · cases h
    exact .date _
  · split at h
    · cases h
      exact .float _
    · obtain ⟨⟨n, r⟩, hn, heq⟩ := Option.map_eq_some_iff.1 h
      cases heq
      exact .integer (isInteger_of_integer? hn)

/-- A reader that gives no integers beyond those of a file. -/
def GivesInRange (item? : List Char → Option (Toml × List Char)) : Prop :=
  ∀ cs v rest, item? cs = some (v, rest) → v.InRange

section Items

variable {item? : List Char → Option (Toml × List Char)} {fuel : Nat}

theorem GivesInRange.items? (hitem : GivesInRange item?) {vs : List Toml}
    (h : items? item? fuel cs = some (vs, rest)) : ∀ v ∈ vs, v.InRange := by
  induction fuel generalizing cs vs rest with
  | zero => cases h
  | succ fuel ih =>
    rw [Toml.items?] at h
    split at h
    · cases h
      nofun
    · split at h
      · cases h
      · rename_i v r hv
        have hfirst := hitem _ v r hv
        split at h
        · obtain ⟨⟨vs', r'⟩, hmore, heq⟩ := Option.map_eq_some_iff.1 h
          cases heq
          have hrest := ih hmore
          intro u hu
          rcases List.mem_cons.1 hu with rfl | hu
          · exact hfirst
          · exact hrest u hu
        · cases h
          intro u hu
          rw [List.mem_singleton.1 hu]
          exact hfirst
        · cases h

theorem GivesInRange.assignment? (hitem : GivesInRange item?) {m : List String × Toml}
    (h : assignment? item? cs = some (m, rest)) : m.2.InRange := by
  unfold Toml.assignment? at h
  split at h
  · obtain ⟨⟨v, r⟩, hv, heq⟩ := Option.map_eq_some_iff.1 h
    cases heq
    exact hitem _ v r hv
  · cases h

theorem GivesInRange.members? (hitem : GivesInRange item?) {ms : List (List String × Toml)}
    (h : members? item? fuel cs = some (ms, rest)) : ∀ m ∈ ms, m.2.InRange := by
  induction fuel generalizing cs ms rest with
  | zero => cases h
  | succ fuel ih =>
    rw [Toml.members?] at h
    split at h
    · cases h
    · rename_i m r hm
      have hfirst := hitem.assignment? hm
      split at h
      · obtain ⟨⟨ms', r'⟩, hmore, heq⟩ := Option.map_eq_some_iff.1 h
        cases heq
        have hrest := ih hmore
        intro u hu
        rcases List.mem_cons.1 hu with rfl | hu
        · exact hfirst
        · exact hrest u hu
      · cases h
        intro u hu
        rw [List.mem_singleton.1 hu]
        exact hfirst
      · cases h

theorem GivesInRange.braced? (hitem : GivesInRange item?) : GivesInRange (braced? item?) := by
  intro cs v rest h
  unfold Toml.braced? at h
  split at h
  · cases h
    exact .table nofun
  · split at h
    · cases h
    · rename_i ms r hms
      obtain ⟨t, ht, heq⟩ := Option.map_eq_some_iff.1 h
      cases heq
      exact inRange_ofAssignments? (hitem.members? hms) ht

end Items

/-- A value that is read has no such integers, by the containers that may stand in it. -/
theorem inRange_value? (depth : Nat) : GivesInRange (value? depth) := by
  induction depth using Nat.strongRecOn with
  | ind depth ih =>
    intro cs v rest h
    fun_cases value? depth cs with
    | case1 | case3 => cases h
    | case2 r depth =>
      obtain ⟨⟨vs, r'⟩, hvs, heq⟩ := Option.map_eq_some_iff.1 h
      cases heq
      exact .array ((ih depth (Nat.lt_succ_self depth)).items? hvs)
    | case4 r depth => exact (ih depth (Nat.lt_succ_self depth)).braced? _ _ _ h
    | case5 | case6 =>
      rw [value?] at h
      obtain ⟨r', -, heq⟩ := Option.map_eq_some_iff.1 h
      cases heq
      exact .bool _
    | case7 | case8 =>
      rw [value?] at h
      obtain ⟨⟨s, r'⟩, -, heq⟩ := Option.map_eq_some_iff.1 h
      cases heq
      exact .text s
    | case9 _ _ hopen hbrace htrue hfalse hquote hliteral =>
      rw [value?.eq_9 _ _ hopen hbrace htrue hfalse hquote hliteral] at h
      exact inRange_number? h

/-! ## Files -/

theorem Statement.inRange_read? {s : Statement} (h : read? cs = some (s, rest)) : s.InRange := by
  unfold read? at h
  split at h
  · obtain ⟨_, -, heq⟩ := Option.map_eq_some_iff.1 h
    cases heq
    exact trivial
  · obtain ⟨_, -, heq⟩ := Option.map_eq_some_iff.1 h
    cases heq
    exact trivial
  · obtain ⟨⟨⟨path, v⟩, r⟩, hassign, heq⟩ := Option.map_eq_some_iff.1 h
    cases heq
    exact (inRange_value? _).assignment? hassign

theorem Statement.inRange_readLines? {lines : Nat} {ss : List Statement}
    (h : readLines? lines cs = some ss) : ∀ s ∈ ss, s.InRange := by
  fun_induction readLines? lines cs generalizing ss with
  | case1 =>
    cases h
    nofun
  | case2 | case4 | case5 => cases h
  | case3 lines cs _ r _ ih => exact ih h
  | case6 lines cs _ _ s rest hread rest' _ ih =>
    obtain ⟨ss', hmore, rfl⟩ := Option.map_eq_some_iff.1 h
    have hrest := ih hmore
    intro u hu
    rcases List.mem_cons.1 hu with rfl | hu
    · exact inRange_read? hread
    · exact hrest u hu

theorem Statement.inRange_readAll? {text : String} {ss : List Statement}
    (h : readAll? text = some ss) : ∀ s ∈ ss, s.InRange :=
  inRange_readLines? h

/-- **No integer in a table that was read is beyond those of a file.** -/
theorem inRange_of_parse? {text : String} {members : List (String × Toml)}
    (h : parse? text = some members) : (Toml.table members).InRange := by
  unfold parse? at h
  split at h
  · cases h
  · rename_i ss hss
    exact Document.inRange_build? (Statement.inRange_readAll? hss) h

end Toml

end Onboarding
