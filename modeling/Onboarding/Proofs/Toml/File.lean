import Onboarding.Proofs.Toml.Statement
import Onboarding.Toml.File
/-!
# TOML files — a table reads back from the file it is written to

A file names a table before its own values, and its own values before the tables in it, so
that no value lands in another table than its own. What comes back has the members in that
order, `arranged`. The proof follows the tables down: each is made at a site of its own
(`Builds`), whether a header names it, a list holds it or other headers only pass through it.
-/

namespace Onboarding

namespace Toml

/-! ## The order in a file -/

/-- The members that are written as values. -/
def ownMembers (members : List (String × Toml)) : List (String × Toml) :=
  members.filter fun m => !m.2.hasHeader

mutual

/-- A value as a file has it: the tables in a table stand behind its values. -/
def arranged : Toml → Toml
  | .table members => .table (ownMembers members ++ innerMembers members)
  | .array items =>
    if !items.isEmpty && items.all isTable then .array (arrangedItems items) else .array items
  | v => v

/-- The members that are written with headers. -/
def innerMembers : List (String × Toml) → List (String × Toml)
  | [] => []
  | (k, v) :: rest =>
    if v.hasHeader then (k, arranged v) :: innerMembers rest else innerMembers rest

/-- The tables of a list. -/
def arrangedItems : List Toml → List Toml
  | [] => []
  | v :: rest => arranged v :: arrangedItems rest

end

variable {members : List (String × Toml)} {items : List Toml} {v : Toml} {key : String}
  {path : List String} {ns ms : Nodes} {around : Nodes → Nodes}

theorem headed_eq_nil (h : v.hasHeader = false) (path : List String) : headed path v = [] := by
  cases v with
  | table members => cases h
  | array items =>
    rw [headed, if_neg]
    intro hall
    rw [hasHeader, hall] at h
    cases h
  | text | integer | float | bool | date => rfl

/-! ## Values of a table -/

/-- Values are put into the table that was started last. -/
theorem foldlM_add_assign (ns : Nodes) (hsite : IsSite path around)
    (members : List (String × Toml)) :
    (members.map fun m => Statement.assign [m.1] m.2).foldlM Document.add ⟨around ns, path⟩ =
      (members.foldlM (fun ns m => assign m.2 [m.1] ns) ns).map fun ns => ⟨around ns, path⟩ := by
  induction members generalizing ns with
  | nil => rfl
  | cons m rest ih =>
    have hstep : Document.add ⟨around ns, path⟩ (.assign [m.1] m.2) =
        (assign m.2 [m.1] ns).map fun ns => ⟨around ns, path⟩ := by
      rw [Document.add, hsite ns (assign m.2 [m.1]), Option.map_map]
      rfl
    rw [List.map_cons, List.foldlM_cons, List.foldlM_cons, hstep]
    cases assign m.2 [m.1] ns with
    | none => rfl
    | some ns' => exact ih ns'

theorem foldlM_ownValues (hsite : IsSite path around) (hkeys : (members.map Prod.fst).Nodup) :
    (ownValues members).foldlM Document.add ⟨around [], path⟩ =
      some ⟨around (valueNodes (ownMembers members)), path⟩ := by
  have hown : ((ownMembers members).map Prod.fst).Nodup :=
    hkeys.sublist (List.filter_sublist.map Prod.fst)
  have hfold := foldlM_assign [] hown nofun
  have hadd := foldlM_add_assign [] hsite (ownMembers members)
  rw [hfold] at hadd
  exact hadd

/-! ## Tables in a table -/

/-- Wherever a value with headers is written under a new key, a node comes to be under the key
that stands for the value. -/
def Builds (v : Toml) : Prop :=
  ∀ ⦃path : List String⦄ ⦃key : String⦄ ⦃around : Nodes → Nodes⦄ ⦃ns ms : Nodes⦄
    (current : List String), Leads path ns ms around → IsSite path around → key ∉ keys ms →
    ∃ n current', (headed (path ++ [key]) v).foldlM Document.add ⟨ns, current⟩ =
      some ⟨around (ms ++ [(key, n)]), current'⟩ ∧ n.toToml = arranged v

/-- The members of a table that can be built: their keys differ, and those that are written
with headers are built. -/
structure Furnished (members : List (String × Toml)) : Prop where
  nodup : (members.map Prod.fst).Nodup
  builds : ∀ m ∈ members, m.2.hasHeader = true → Builds m.2

/-- The inner tables of a table are built behind what it has. The table itself may be missing if
there are any. -/
theorem foldlM_innerTables (current : List String) (hmembers : Furnished members)
    (hnew : ∀ m ∈ members, m.2.hasHeader = true → m.1 ∉ keys ms)
    (hleads : Leads path ns ms around) (hsite : IsSite path around)
    (hthere : ns = around ms ∨ ∃ m ∈ members, m.2.hasHeader = true) :
    ∃ ms' current', (innerTables path members).foldlM Document.add ⟨ns, current⟩ =
      some ⟨around (ms ++ ms'), current'⟩ ∧ nodesToml ms' = innerMembers members := by
  induction members generalizing ns ms current with
  | nil =>
    have hns : ns = around ms := hthere.resolve_right (by simp)
    exact ⟨[], current, by rw [List.append_nil, hns]; rfl, rfl⟩
  | cons m rest ih =>
    obtain ⟨k, v⟩ := m
    obtain ⟨hk, hkeys⟩ := List.nodup_cons.1 hmembers.nodup
    have hrest : Furnished rest :=
      ⟨hkeys, fun m hm => hmembers.builds m (List.mem_cons_of_mem (k, v) hm)⟩
    have hnewRest := fun m hm => hnew m (List.mem_cons_of_mem (k, v) hm)
    rw [innerTables, innerMembers, List.foldlM_append]
    cases hheader : v.hasHeader with
    | false =>
      have hthere' : ns = around ms ∨ ∃ m ∈ rest, m.2.hasHeader = true := by
        refine hthere.imp_right fun ⟨m, hm, h⟩ => ?_
        rcases List.mem_cons.1 hm with rfl | hm
        · rw [hheader] at h
          cases h
        · exact ⟨m, hm, h⟩
      rw [headed_eq_nil hheader]
      exact ih current hrest hnewRest hleads hthere'
    | true =>
      have hkey : k ∉ keys ms := hnew (k, v) List.mem_cons_self hheader
      obtain ⟨n, current₁, hfirst, hn⟩ :=
        hmembers.builds (k, v) List.mem_cons_self hheader current hleads hsite hkey
      have hnew' : ∀ m ∈ rest, m.2.hasHeader = true → m.1 ∉ keys (ms ++ [(k, n)]) := by
        intro m hm hh hmem
        have hmk : m.1 ∈ rest.map Prod.fst := List.mem_map_of_mem hm
        have hne : m.1 ≠ k := fun e => hk (e ▸ hmk)
        simp only [keys, List.map_append, List.map_cons, List.map_nil, List.mem_append,
          List.mem_singleton] at hmem
        exact hmem.elim (hnewRest m hm hh) hne
      obtain ⟨ms', current₂, hmore, hms'⟩ :=
        ih current₁ hrest hnew' (hsite _) (.inl rfl)
      refine ⟨(k, n) :: ms', current₂, ?_, ?_⟩
      · rw [hfirst]
        simpa using hmore
      · rw [nodesToml, hn, hms']
        rfl

/-- A table at its site is filled with its own values and the tables in it. -/
theorem foldlM_body (hmembers : Furnished members) (hsite : IsSite path around) :
    ∃ ms current, (ownValues members ++ innerTables path members).foldlM Document.add
        ⟨around [], path⟩ = some ⟨around ms, current⟩ ∧
      nodesToml ms = ownMembers members ++ innerMembers members := by
  have hown := foldlM_ownValues hsite hmembers.nodup
  have hnew : ∀ m ∈ members, m.2.hasHeader = true →
      m.1 ∉ keys (valueNodes (ownMembers members)) := by
    intro m hm hheader hmem
    rw [keys_valueNodes] at hmem
    obtain ⟨m', hm', hkey⟩ := List.mem_map.1 hmem
    obtain ⟨hin, hvalue⟩ := List.mem_filter.1 hm'
    have hsame : m' = m := List.inj_on_of_nodup_map hmembers.nodup hin hm hkey
    rw [hsame, hheader] at hvalue
    cases hvalue
  obtain ⟨ms, current, hinner, hms⟩ :=
    foldlM_innerTables path hmembers hnew (hsite _) hsite (.inl rfl)
  refine ⟨valueNodes (ownMembers members) ++ ms, current, ?_, ?_⟩
  · rw [List.foldlM_append, hown]
    exact hinner
  · rw [nodesToml_append, nodesToml_valueNodes, hms]

/-! ## Tables and lists of tables -/

/-- A table without values of its own is built by the tables in it, and needs no header. -/
theorem builds_passed (hmembers : Furnished members) (hshown : isShown members = false) :
    Builds (.table members) := by
  intro path key around ns ms current hleads hsite hkey
  simp only [isShown, Bool.or_eq_false_iff, List.isEmpty_eq_false_iff, Bool.not_eq_false',
    List.isEmpty_iff] at hshown
  obtain ⟨hne, hown⟩ := hshown
  have hownMembers : ownMembers members = [] := List.map_eq_nil_iff.1 hown
  have hheaders : ∃ m ∈ members, m.2.hasHeader = true := by
    obtain ⟨m, rest, rfl⟩ := List.exists_cons_of_ne_nil hne
    refine ⟨m, List.mem_cons_self, ?_⟩
    by_contra hno
    have hm : m ∈ ownMembers (m :: rest) := List.mem_filter.2 ⟨List.mem_cons_self, by simp [hno]⟩
    rw [hownMembers] at hm
    cases hm
  obtain ⟨ms', current', hinner, hms'⟩ := foldlM_innerTables current hmembers
    (fun _ _ _ => List.not_mem_nil) (hleads.passed hkey) (hsite.table hkey .passed) (.inr hheaders)
  refine ⟨.table .passed ms', current', ?_, ?_⟩
  · have hshown : isShown members = false := by simp [isShown, hne, hown]
    rw [headed, hshown, hown]
    exact hinner
  · rw [Node.toToml, hms', arranged, hownMembers, List.nil_append]

/-- Any other table is built behind its header. -/
theorem builds_named (hmembers : Furnished members) (hshown : isShown members = true) :
    Builds (.table members) := by
  intro path key around ns ms current hleads hsite hkey
  have hheader : Document.add ⟨ns, current⟩ (.table (path ++ [key])) =
      some ⟨around (ms ++ [(key, .table .named [])]), path ++ [key]⟩ := by
    rw [Document.add, hleads.alterAt, alter_of_not_mem hkey]
    rfl
  obtain ⟨ms', current', hbody, hms'⟩ := foldlM_body hmembers (hsite.table hkey .named)
  refine ⟨.table .named ms', current', ?_, ?_⟩
  · rw [headed, hshown, if_pos rfl, List.append_assoc, List.singleton_append, List.foldlM_cons,
      hheader]
    exact hbody
  · rw [Node.toToml, hms', arranged]

/-- The tables of a list are added one by one behind those that are there. -/
theorem foldlM_listed (current : List String)
    (hitems : ∀ v ∈ items, ∃ members, v = .table members ∧ Furnished members)
    (hsite : IsSite path around) (hkey : key ∉ keys ms) (done : List Nodes)
    (hextend : ∀ v ∈ items.head?, alterAt extend (path ++ [key]) ns =
      some (around (ms ++ [(key, .tables (done ++ [[]]))])))
    (hthere : items = [] → ns = around (ms ++ [(key, .tables done)])) :
    ∃ tables current', (listed (path ++ [key]) items).foldlM Document.add ⟨ns, current⟩ =
        some ⟨around (ms ++ [(key, .tables (done ++ tables))]), current'⟩ ∧
      itemsToml tables = arrangedItems items := by
  induction items generalizing ns current done with
  | nil => exact ⟨[], current, by rw [listed, hthere rfl, List.append_nil]; rfl, rfl⟩
  | cons v rest ih =>
    obtain ⟨members, rfl, hmembers⟩ := hitems v List.mem_cons_self
    have hheader : Document.add ⟨ns, current⟩ (.item (path ++ [key])) =
        some ⟨around (ms ++ [(key, .tables (done ++ [[]]))]), path ++ [key]⟩ := by
      rw [Document.add, hextend _ rfl]
      rfl
    obtain ⟨first, current₁, hbody, hfirst⟩ := foldlM_body hmembers (hsite.tables hkey done)
    have hmore : ∀ v ∈ rest.head?, alterAt extend (path ++ [key])
        (around (ms ++ [(key, .tables (done ++ [first]))])) =
        some (around (ms ++ [(key, .tables (done ++ [first] ++ [[]]))])) := fun _ _ => by
      rw [(hsite _).alterAt, alter_concat hkey]
      rfl
    obtain ⟨tables, current₂, hrest, htables⟩ :=
      ih current₁ (fun u hu => hitems u (List.mem_cons_of_mem _ hu)) (done ++ [first])
        hmore fun _ => rfl
    refine ⟨first :: tables, current₂, ?_, ?_⟩
    · rw [listed, List.append_assoc, List.cons_append, List.foldlM_cons, hheader,
        ← List.append_assoc, Option.bind_eq_bind, Option.bind_some, List.foldlM_append, hbody]
      simpa using hrest
    · rw [itemsToml, hfirst, htables, arrangedItems, arranged]

theorem builds_listed
    (hitems : ∀ v ∈ items, ∃ members, v = .table members ∧ Furnished members)
    (hheader : (array items).hasHeader = true) : Builds (.array items) := by
  intro path key around ns ms current hleads hsite hkey
  have hall : (!items.isEmpty && items.all isTable) = true := hheader
  have hne : items ≠ [] := by
    rintro rfl
    cases hall
  have hextend : ∀ v ∈ items.head?, alterAt extend (path ++ [key]) ns =
      some (around (ms ++ [(key, .tables ([] ++ [[]]))])) := fun _ _ => by
    rw [hleads.alterAt, alter_of_not_mem hkey]
    rfl
  obtain ⟨tables, current', hlisted, htables⟩ := foldlM_listed current hitems hsite hkey
    [] hextend fun h => absurd h hne
  refine ⟨.tables tables, current', ?_, ?_⟩
  · rw [headed, if_pos hall]
    exact hlisted
  · rw [Node.toToml, htables, arranged, if_pos hall]

/-- **Whatever is written with headers is built from its statements**, by induction on the
value: a list is built from what its tables hold, and not from the tables. -/
theorem Writable.furnished {depth : Nat} (h : Writable depth v) :
    (v.hasHeader = true → Builds v) ∧ ∀ members, v = .table members → Furnished members := by
  induction h with
  | text | integer | bool => exact ⟨nofun, nofun⟩
  | @array depth items hitems ih =>
    refine ⟨fun hheader => ?_, nofun⟩
    have hall : items.all isTable = true := (Bool.and_eq_true_iff.1 hheader).2
    have htables : ∀ v ∈ items, ∃ members, v = .table members ∧ Furnished members := by
      intro v hv
      have htable := List.all_eq_true.1 hall v hv
      cases v with
      | table members => exact ⟨members, rfl, (ih _ hv).2 members rfl⟩
      | text | integer | float | bool | date | array => cases htable
    exact builds_listed htables hheader
  | @table depth members hkeys hmembers ih =>
    have hfurnished : Furnished members := ⟨hkeys, fun m hm => (ih m hm).1⟩
    refine ⟨fun _ => ?_, fun members' heq => ?_⟩
    · cases hshown : isShown members with
      | false => exact builds_passed hfurnished hshown
      | true => exact builds_named hfurnished hshown
    · cases heq
      exact hfurnished

/-- **The statements of a table add up to the table**, in the order of a file. -/
theorem build?_statements {depth : Nat} (h : Writable depth (.table members)) :
    Document.build? (statements members) = some (ownMembers members ++ innerMembers members) := by
  obtain ⟨ms, current, hbody, hms⟩ := foldlM_body (h.furnished.2 members rfl) isSite_nil
  have hfold : (statements members).foldlM Document.add { } = some ⟨ms, current⟩ := hbody
  rw [Document.build?, hfold, Option.map_some, hms]

/-! ## The statements of a file -/

theorem writable_ownValues {depth : Nat} (hdepth : depth ≤ keyLimit)
    (hmembers : ∀ m ∈ members, Writable depth m.2) : ∀ s ∈ ownValues members, s.Writable := by
  intro s hs
  obtain ⟨m, hm, rfl⟩ := List.mem_map.1 hs
  have hin : m ∈ members := (List.mem_filter.1 hm).1
  exact ⟨⟨List.cons_ne_nil _ _, by rw [List.length_singleton]; decide⟩,
    (hmembers m hin).mono hdepth⟩

theorem mem_innerTables {s : Statement} (h : s ∈ innerTables path members) :
    ∃ m ∈ members, s ∈ headed (path ++ [m.1]) m.2 := by
  induction members with
  | nil =>
    rw [innerTables] at h
    cases h
  | cons m rest ih =>
    obtain ⟨k, v⟩ := m
    rw [innerTables] at h
    rcases List.mem_append.1 h with h | h
    · exact ⟨(k, v), List.mem_cons_self, h⟩
    · obtain ⟨m, hm, hs⟩ := ih h
      exact ⟨m, List.mem_cons_of_mem _ hm, hs⟩

/-- The tables of a list have the statements that they have alone, but for their headers. -/
theorem mem_listed {s : Statement} (h : s ∈ listed path items) :
    s = .item path ∨ ∃ v ∈ items, s ∈ headed path v := by
  induction items with
  | nil =>
    rw [listed] at h
    cases h
  | cons v rest ih =>
    have hrest : s ∈ listed path rest → s = .item path ∨ ∃ u ∈ v :: rest, s ∈ headed path u :=
      fun h => (ih h).imp_right fun ⟨u, hu, hs⟩ => ⟨u, List.mem_cons_of_mem v hu, hs⟩
    cases v with
    | table members =>
      rw [listed, List.append_assoc, List.cons_append, List.mem_cons, ← List.append_assoc,
        List.mem_append] at h
      rcases h with rfl | h | h
      · exact .inl rfl
      · refine .inr ⟨_, List.mem_cons_self, ?_⟩
        rw [headed, List.append_assoc]
        exact List.mem_append_right _ h
      · exact hrest h
    | text | integer | float | bool | date | array => exact hrest h

/-- The keys of what is written with headers are short enough for a file, if no more containers
stand in one another than the path leaves room for. -/
theorem writable_headed {depth : Nat} (h : Writable depth v) {path : List String}
    (hpath : path ≠ []) (hdepth : path.length + depth ≤ depthLimit) :
    ∀ s ∈ headed path v, s.Writable := by
  have hpos := List.length_pos_iff.2 hpath
  have hlimit : keyLimit + 1 = depthLimit := rfl
  induction h generalizing path with
  | text | integer | bool =>
    intro s hs
    rw [headed_eq_nil rfl] at hs
    cases hs
  | @array depth items hitems ih =>
    intro s hs
    rw [headed] at hs
    split at hs
    · rcases mem_listed hs with rfl | ⟨v, hv, hs⟩
      · exact ⟨hpath, by omega⟩
      · exact ih v hv hpath (by omega) hpos s hs
    · cases hs
  | @table depth members hkeys hmembers ih =>
    intro s hs
    rw [headed, List.mem_append, List.mem_append] at hs
    rcases hs with (hs | hs) | hs
    · split at hs
      · rw [List.mem_singleton.1 hs]
        exact ⟨hpath, by omega⟩
      · cases hs
    · exact writable_ownValues (by omega) hmembers s hs
    · obtain ⟨m, hm, hs⟩ := mem_innerTables hs
      have hlength : (path ++ [m.1]).length = path.length + 1 := by simp
      exact ih m hm (by simp) (by omega) (by omega) s hs

theorem writable_statements (h : Writable depthLimit (.table members)) :
    ∀ s ∈ statements members, s.Writable := by
  have hlimit : keyLimit + 1 = depthLimit := rfl
  rw [← hlimit] at h
  cases h with
  | table hkeys hmembers =>
    intro s hs
    rcases List.mem_append.1 hs with hs | hs
    · exact writable_ownValues (Nat.le_refl _) hmembers s hs
    · obtain ⟨m, hm, hs⟩ := mem_innerTables hs
      exact writable_headed (hmembers m hm) (List.cons_ne_nil _ _)
        (by rw [List.length_singleton]; omega) s hs

/-- **A table reads back from the file it is written to**, its values before the tables in it. -/
theorem parse?_render (h : Writable depthLimit (.table members)) :
    parse? (render members) = some (ownMembers members ++ innerMembers members) := by
  have hread := Statement.readAll?_writeAll (writable_statements h)
  rw [parse?, render, hread]
  exact build?_statements h

end Toml

end Onboarding
