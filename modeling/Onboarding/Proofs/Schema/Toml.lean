import Mathlib.Data.List.Nodup
import Onboarding.Proofs.Results
import Onboarding.Proofs.Toml.Range
import Onboarding.Proofs.Toml.Value
import Onboarding.Schema.Toml
/-!
# TOML records — what is written comes back, and what was read can be written

A member that is left out is read as its fallback, so a value comes back only if whatever its
schema leaves out is what the schema fills in. `Schema.Restores` says so, member by member, and
that no two members share a name. For such a schema

* a value reads back from the TOML it is written as (`Schema.ofToml?_of_toToml?`),
* that TOML is one a file can hold (`Schema.writable_of_toToml?`), and
* whatever was read from a file can be written again (`Schema.exists_toToml?_of_ofToml?`).
-/

namespace Onboarding

open Toml

mutual

/-- What a schema leaves out where it writes a value, it fills in again where it reads one. -/
def Schema.Restores : {α : Type} → Schema α → Prop
  | _, .word => True
  | _, .count => True
  | _, .text => True
  | _, .choice names => names.Nodup
  | _, .option item => item.Restores
  | _, .list item => item.Restores
  | _, .record fields => fields.Restores
  | _, .via base _ _ _ _ => base.Restores

/-- The same for the members of a record: no two share a name, a member that is left out has the
value that stands in for it, and what stands in for it can be written. -/
def Fields.Restores : {α : Type} → Fields α → Prop
  | _, .done => True
  | _, .field name item fallback rest =>
    name ∉ rest.names ∧ (∀ a, item.isAbsent a = true → fallback.or item.absent? = some a) ∧
      (∀ a, fallback = some a → item.isAbsent a = true ∨ ∃ v, item.toToml? a = some v) ∧
      item.Restores ∧ rest.Restores

end

/-! ## A value comes back -/

theorem Toml.ofNat?_eq_some {n : Nat} {v : Toml} (h : ofNat? n = some v) :
    v = .integer n ∧ n < integerLimit := by
  unfold ofNat? at h
  split at h
  · exact ⟨(Option.some.inj h).symm, ‹_›⟩
  · cases h

theorem Toml.ofNat?_of_lt {n : Nat} (h : n < integerLimit) : ofNat? n = some (.integer n) :=
  if_pos h

theorem Toml.toNat?_natCast (n : Nat) : toNat? (.integer n) = some n := by
  have hn : (0 : Int) ≤ n := Int.natCast_nonneg n
  rw [toNat?, if_pos hn, Int.toNat_natCast]

/-- Only members of the record are written. -/
theorem Fields.mem_names_of_toTable? : {α : Type} → (fs : Fields α) → (a : α) →
    (ms : List (String × Toml)) → fs.toTable? a = some ms → ∀ m ∈ ms, m.1 ∈ fs.names
  | _, .done, (), ms, h => by
    rw [Fields.toTable?] at h
    cases h
    nofun
  | _, .field name item _ rest, (a, b), ms, h => by
    have ih := fun ms h m hm => List.mem_cons_of_mem name (rest.mem_names_of_toTable? b ms h m hm)
    rw [Fields.toTable?] at h
    split at h
    · exact ih ms h
    · split at h
      · rename_i v ms' _ hrest
        cases h
        intro m hm
        rcases List.mem_cons.1 hm with rfl | hm
        · exact List.mem_cons_self
        · exact ih ms' hrest m hm
      · cases h

theorem lookup_eq_none_of_not_mem {name : String} {ms : List (String × Toml)}
    (h : ∀ m ∈ ms, m.1 ≠ name) : ms.lookup name = none :=
  List.lookup_eq_none_iff.2 fun m hm => by simpa using (h m hm).symm

mutual

/-- **A value reads back from the TOML that it is written as.** -/
theorem Schema.ofToml?_of_toToml? : {α : Type} → (s : Schema α) → s.Restores → (a : α) →
    (v : Toml) → s.toToml? a = some v → s.ofToml? v = some a
  | _, .word, _, n, v, h => by
    obtain ⟨rfl, -⟩ := ofNat?_eq_some h
    rw [Schema.ofToml?, toNat?_natCast, Option.map_some, UInt64.ofNat_toNat]
  | _, .count, _, n, v, h => by
    obtain ⟨rfl, -⟩ := ofNat?_eq_some h
    rw [Schema.ofToml?, toNat?_natCast]
  | _, .text, _, s, v, h => by
    cases h
    rw [Schema.ofToml?]
  | _, .choice names, hs, i, v, h => by
    cases h
    have hfind : names.finIdxOf? names[i] = some i := by
      rw [List.finIdxOf?_eq_some_iff]
      refine ⟨rfl, fun j hj heq => ?_⟩
      have hsame : (j : Nat) = i := (List.Nodup.getElem_inj_iff hs).1 heq
      omega
    rw [Schema.ofToml?]
    exact hfind
  | _, .option item, hs, none, v, h => by
    cases h
  | _, .option item, hs, some a, v, h => by
    have ih := Schema.ofToml?_of_toToml? item hs a v h
    rw [Schema.ofToml?, ih, Option.map_some]
  | _, .list item, hs, as, v, h => by
    obtain ⟨vs, hvs, rfl⟩ := Option.map_eq_some_iff.1 h
    have ih := fun a v => Schema.ofToml?_of_toToml? item hs a v
    rw [Schema.ofToml?]
    exact mapM_eq_some_iff.2 ((mapM_eq_some_iff.1 hvs).flip.imp fun v a hav => ih a v hav)
  | _, .record fields, hs, a, v, h => by
    obtain ⟨ms, hms, rfl⟩ := Option.map_eq_some_iff.1 h
    rw [Schema.ofToml?]
    exact Fields.ofTable?_of_toTable? fields hs a ms hms ms fun _ _ => rfl
  | _, .via base make get _ make_get, hs, b, v, h => by
    have ih := Schema.ofToml?_of_toToml? base hs (get b) v h
    rw [Schema.ofToml?, ih, Option.map_some, make_get]

/-- The same for the members of a record, in any table that has them. -/
theorem Fields.ofTable?_of_toTable? : {α : Type} → (fs : Fields α) → fs.Restores → (a : α) →
    (ms : List (String × Toml)) → fs.toTable? a = some ms → (members : List (String × Toml)) →
    (∀ name ∈ fs.names, members.lookup name = ms.lookup name) → fs.ofTable? members = some a
  | _, .done, _, (), ms, h, members, hmembers => by rw [Fields.ofTable?]
  | _, .field name item fallback rest, hs, (a, b), ms, h, members, hmembers => by
    obtain ⟨hname, habsent, -, hitem, hrest⟩ := hs
    rw [Fields.toTable?] at h
    rw [Fields.ofTable?]
    split at h
    · rename_i hleft
      have hnone : members.lookup name = none := by
        rw [hmembers name List.mem_cons_self]
        refine lookup_eq_none_of_not_mem fun m hm e => hname ?_
        exact e ▸ rest.mem_names_of_toTable? b ms h m hm
      have ih := Fields.ofTable?_of_toTable? rest hrest b ms h members
        fun n hn => hmembers n (List.mem_cons_of_mem name hn)
      simp only [hnone, habsent a hleft, ih]
    · split at h
      · rename_i v ms' hv hms'
        cases h
        have hfound : members.lookup name = some v := by
          rw [hmembers name List.mem_cons_self]
          exact List.lookup_cons_self
        have hothers : ∀ n ∈ rest.names, members.lookup n = ms'.lookup n := by
          intro n hn
          have hne : (n == name) = false := beq_false_of_ne fun e => hname (e ▸ hn)
          rw [hmembers n (List.mem_cons_of_mem name hn), List.lookup_cons, hne]
        have hread := Schema.ofToml?_of_toToml? item hitem a v hv
        have ih := Fields.ofTable?_of_toTable? rest hrest b ms' hms' members hothers
        simp only [hfound, hread, ih]
      · cases h

end

/-! ## What is written, a file can hold -/

mutual

/-- The containers that stand in one another in the values of a schema. -/
def Schema.depth : {α : Type} → Schema α → Nat
  | _, .word => 0
  | _, .count => 0
  | _, .text => 0
  | _, .choice _ => 0
  | _, .option item => item.depth
  | _, .list item => item.depth + 1
  | _, .record fields => fields.depth + 1
  | _, .via base _ _ _ _ => base.depth

/-- The same for the members of a record. -/
def Fields.depth : {α : Type} → Fields α → Nat
  | _, .done => 0
  | _, .field _ item _ rest => max item.depth rest.depth

end

theorem Toml.writable_of_ofNat? {depth n : Nat} {v : Toml} (h : ofNat? n = some v) :
    Writable depth v := by
  obtain ⟨rfl, hlt⟩ := ofNat?_eq_some h
  exact .integer (by constructor <;> omega)

mutual

/-- **What a schema writes, a file can hold.** -/
theorem Schema.writable_of_toToml? : {α : Type} → (s : Schema α) → s.Restores → (a : α) →
    (v : Toml) → s.toToml? a = some v → Writable s.depth v
  | _, .word, _, n, v, h => by
    exact writable_of_ofNat? h
  | _, .count, _, n, v, h => by
    exact writable_of_ofNat? h
  | _, .text, _, s, v, h => by
    cases h
    exact .text s
  | _, .choice names, _, i, v, h => by
    cases h
    exact .text names[i]
  | _, .option item, _, none, v, h => by
    cases h
  | _, .option item, hs, some a, v, h => by
    exact Schema.writable_of_toToml? item hs a v h
  | _, .list item, hs, as, v, h => by
    obtain ⟨vs, hvs, rfl⟩ := Option.map_eq_some_iff.1 h
    refine .array fun v hv => ?_
    obtain ⟨a, -, ha⟩ := exists_of_mem_mapM hvs hv
    exact Schema.writable_of_toToml? item hs a v ha
  | _, .record fields, hs, a, v, h => by
    obtain ⟨ms, hms, rfl⟩ := Option.map_eq_some_iff.1 h
    obtain ⟨hkeys, hmembers⟩ := Fields.writable_of_toTable? fields hs a ms hms
    exact .table hkeys hmembers
  | _, .via base make get _ make_get, hs, b, v, h => by
    exact Schema.writable_of_toToml? base hs (get b) v h

/-- The same for the members of a record, each of another name. -/
theorem Fields.writable_of_toTable? : {α : Type} → (fs : Fields α) → fs.Restores → (a : α) →
    (ms : List (String × Toml)) → fs.toTable? a = some ms →
    (ms.map Prod.fst).Nodup ∧ ∀ m ∈ ms, Writable fs.depth m.2
  | _, .done, _, (), ms, h => by
    rw [Fields.toTable?] at h
    cases h
    exact ⟨List.nodup_nil, nofun⟩
  | _, .field name item fallback rest, hs, (a, b), ms, h => by
    obtain ⟨hname, -, -, hitem, hrest⟩ := hs
    rw [Fields.toTable?] at h
    split at h
    · obtain ⟨hkeys, hmembers⟩ := Fields.writable_of_toTable? rest hrest b ms h
      exact ⟨hkeys, fun m hm => (hmembers m hm).mono (Nat.le_max_right ..)⟩
    · split at h
      · rename_i v ms' hv hms'
        cases h
        obtain ⟨hkeys, hmembers⟩ := Fields.writable_of_toTable? rest hrest b ms' hms'
        have hfirst := Schema.writable_of_toToml? item hitem a v hv
        refine ⟨List.nodup_cons.2 ⟨fun hmem => ?_, hkeys⟩, fun m hm => ?_⟩
        · obtain ⟨m, hm, heq⟩ := List.mem_map.1 hmem
          have hin := rest.mem_names_of_toTable? b ms' hms' m hm
          exact hname (heq ▸ hin : (name, v).1 ∈ rest.names)
        · rcases List.mem_cons.1 hm with rfl | hm
          · exact hfirst.mono (Nat.le_max_left ..)
          · exact (hmembers m hm).mono (Nat.le_max_right ..)
      · cases h

end

/-! ## What was read can be written -/

/-- What stands in for a value that is left out is left out again. -/
theorem Schema.isAbsent_of_absent? : {α : Type} → (s : Schema α) → (a : α) →
    s.absent? = some a → s.isAbsent a = true
  | _, .option item, a, h => by
    rw [Schema.absent?] at h
    cases h
    rfl
  | _, .via base make get get_make _, b, h => by
    rw [Schema.absent?] at h
    obtain ⟨a, ha, rfl⟩ := Option.map_eq_some_iff.1 h
    rw [Schema.isAbsent, get_make]
    exact base.isAbsent_of_absent? a ha

/-- A record can be written if each member can, unless it is left out. -/
theorem Fields.exists_toTable?_iff {α β : Type} {name : String} {item : Schema α}
    {fallback : Option α} {rest : Fields β} {a : α} {b : β} :
    (∃ ms, (Fields.field name item fallback rest).toTable? (a, b) = some ms) ↔
      (item.isAbsent a = true ∨ ∃ v, item.toToml? a = some v) ∧
        ∃ ms, rest.toTable? b = some ms := by
  rw [Fields.toTable?]
  cases hleft : item.isAbsent a with
  | true => simp
  | false =>
    cases hv : item.toToml? a with
    | none => simp
    | some v => cases hms : rest.toTable? b <;> simp

theorem Toml.exists_ofNat?_of_toNat? {v : Toml} {n : Nat} (hv : v.InRange)
    (h : v.toNat? = some n) : ofNat? n = some (.integer n) := by
  cases hv with
  | @integer n' hn' =>
    rw [toNat?] at h
    split at h
    · cases h
      exact ofNat?_of_lt (by have := hn'.2; omega)
    · cases h
  | text | float | bool | date | array | table => cases h

mutual

/-- **What a schema reads from a file, it can write.** -/
theorem Schema.exists_toToml?_of_ofToml? : {α : Type} → (s : Schema α) → s.Restores →
    (v : Toml) → v.InRange → (a : α) → s.ofToml? v = some a → ∃ w, s.toToml? a = some w
  | _, .word, _, v, hv, n, h => by
    rw [Schema.ofToml?] at h
    obtain ⟨k, hk, rfl⟩ := Option.map_eq_some_iff.1 h
    have hlt := (ofNat?_eq_some (exists_ofNat?_of_toNat? hv hk)).2
    have hle : (UInt64.ofNat k).toNat ≤ k := Nat.mod_le _ _
    exact ⟨_, ofNat?_of_lt (Nat.lt_of_le_of_lt hle hlt)⟩
  | _, .count, _, v, hv, n, h => by
    rw [Schema.ofToml?] at h
    exact ⟨_, exists_ofNat?_of_toNat? hv h⟩
  | _, .text, _, v, hv, s, h => ⟨.text s, rfl⟩
  | _, .choice names, _, v, hv, i, h => ⟨.text names[i], rfl⟩
  | _, .option item, hs, v, hv, o, h => by
    rw [Schema.ofToml?] at h
    obtain ⟨a, ha, rfl⟩ := Option.map_eq_some_iff.1 h
    exact Schema.exists_toToml?_of_ofToml? item hs v hv a ha
  | _, .list item, hs, v, hv, as, h => by
    cases hv with
    | @array items hitems =>
      rw [Schema.ofToml?] at h
      have hwritten : ∀ a ∈ as, ∃ w, item.toToml? a = some w := by
        intro a ha
        obtain ⟨v, hv, hva⟩ := exists_of_mem_mapM h ha
        exact Schema.exists_toToml?_of_ofToml? item hs v (hitems v hv) a hva
      obtain ⟨ws, hws⟩ := exists_mapM hwritten
      exact ⟨.array ws, congrArg (Option.map Toml.array) hws⟩
    | text | integer | float | bool | date | table => simp [Schema.ofToml?] at h
  | _, .record fields, hs, v, hv, a, h => by
    have hwritten : ∃ ms, fields.toTable? a = some ms := by
      cases hv with
      | @table members hmembers =>
        rw [Schema.ofToml?] at h
        exact Fields.exists_toTable?_of_ofTable? fields hs members hmembers a h
      | @array items hitems =>
        rw [Schema.ofToml?] at h
        exact Fields.exists_toTable?_of_ofTomlItems? fields hs items hitems a h
      | date =>
        rw [Schema.ofToml?] at h
        exact Fields.exists_toTable?_of_ofTable? fields hs [] nofun a h
      | text | integer | float | bool => simp [Schema.ofToml?] at h
    obtain ⟨ms, hms⟩ := hwritten
    exact ⟨.table ms, congrArg (Option.map Toml.table) hms⟩
  | _, .via base make get get_make _, hs, v, hv, b, h => by
    rw [Schema.ofToml?] at h
    obtain ⟨a, ha, rfl⟩ := Option.map_eq_some_iff.1 h
    have hget : get (make a) = a := get_make a
    show ∃ w, base.toToml? (get (make a)) = some w
    rw [hget]
    exact Schema.exists_toToml?_of_ofToml? base hs v hv a ha

/-- The same for the members of a table. -/
theorem Fields.exists_toTable?_of_ofTable? : {α : Type} → (fs : Fields α) → fs.Restores →
    (members : List (String × Toml)) → (∀ m ∈ members, m.2.InRange) → (a : α) →
    fs.ofTable? members = some a → ∃ ms, fs.toTable? a = some ms
  | _, .done, _, members, _, (), h => ⟨[], by rw [Fields.toTable?]⟩
  | _, .field name item fallback rest, hs, members, hmembers, (a, b), h => by
    obtain ⟨-, -, hfallback, hitem, hrest⟩ := hs
    rw [Fields.ofTable?] at h
    split at h
    · rename_i ha hb
      cases h
      refine Fields.exists_toTable?_iff.2
        ⟨?_, Fields.exists_toTable?_of_ofTable? rest hrest members hmembers b hb⟩
      cases hfound : members.lookup name with
      | some v =>
        rw [hfound] at ha
        obtain ⟨front, back, rfl, -⟩ := List.lookup_eq_some_iff.1 hfound
        have hv := hmembers (name, v) (by simp)
        exact .inr (Schema.exists_toToml?_of_ofToml? item hitem v hv a ha)
      | none =>
        rw [hfound] at ha
        cases fallback with
        | some c => exact hfallback a ha
        | none => exact .inl (item.isAbsent_of_absent? a ha)
    · cases h

/-- The same for the items of a list that stands for a record. -/
theorem Fields.exists_toTable?_of_ofTomlItems? : {α : Type} → (fs : Fields α) → fs.Restores →
    (items : List Toml) → (∀ v ∈ items, v.InRange) → (a : α) →
    fs.ofTomlItems? items = some a → ∃ ms, fs.toTable? a = some ms
  | _, .done, _, items, _, (), h => ⟨[], by rw [Fields.toTable?]⟩
  | _, .field name item fallback rest, hs, items, hitems, (a, b), h => by
    obtain ⟨-, -, hfallback, hitem, hrest⟩ := hs
    -- the first item is the member, and where there is none its fallback
    have hmember : rest.ofTomlItems? items.tail = some b ∧
        (item.isAbsent a = true ∨ ∃ w, item.toToml? a = some w) := by
      cases items with
      | cons v _ =>
        rw [Fields.ofTomlItems?] at h
        split at h
        · rename_i ha hb
          cases h
          exact ⟨hb, .inr
            (Schema.exists_toToml?_of_ofToml? item hitem v (hitems v List.mem_cons_self) a ha)⟩
        · cases h
      | nil =>
        unfold Fields.ofTomlItems? at h
        dsimp only at h
        split at h
        · rename_i hb
          cases h
          exact ⟨hb, hfallback a rfl⟩
        · cases h
    obtain ⟨hb, ha⟩ := hmember
    have hothers := Fields.exists_toTable?_of_ofTomlItems? rest hrest items.tail
      (fun v hv => hitems v (List.mem_of_mem_tail hv)) b hb
    exact Fields.exists_toTable?_iff.2 ⟨ha, hothers⟩

end

end Onboarding
