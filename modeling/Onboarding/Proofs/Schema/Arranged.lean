import Onboarding.Proofs.Schema.Toml
import Onboarding.Proofs.Toml.File
/-!
# TOML records in the order of a file — a value is read the same wherever its members stand

A file has the members of a table in another order than its schema: the plain ones first and
the tables behind them (`Toml.arranged`). Members are looked up by name, so a schema reads the
same value from either (`Schema.ofToml?_arranged`). The one thing that is not looked up is a
case that stands as a table of its name; such a table has a single member and so no order.
-/

namespace Onboarding

open Toml

/-! ## Values in the order of a file -/

namespace Toml

variable {members : List (String × Toml)} {v : Toml}

theorem arranged_of_not_hasHeader (h : v.hasHeader = false) : arranged v = v := by
  cases v with
  | table members => cases h
  | array items =>
    rw [arranged, if_neg]
    intro hall
    rw [hasHeader, hall] at h
    cases h
  | text | integer | float | bool | date => rfl

theorem arrangedItems_eq (items : List Toml) : arrangedItems items = items.map arranged := by
  induction items with
  | nil => rfl
  | cons v rest ih => rw [arrangedItems, ih, List.map_cons]

/-- A member is found under its name, wherever a file puts it. -/
theorem lookup_arranged (hkeys : (members.map Prod.fst).Nodup) (name : String) :
    (ownMembers members ++ innerMembers members).lookup name =
      (members.lookup name).map arranged := by
  rw [List.lookup_append]
  induction members with
  | nil => rfl
  | cons m rest ih =>
    obtain ⟨k, v⟩ := m
    obtain ⟨hk, hrest⟩ := List.nodup_cons.1 hkeys
    have ih := ih hrest
    rw [List.lookup_cons, innerMembers]
    cases hheader : v.hasHeader with
    | false =>
      have hown : ownMembers ((k, v) :: rest) = (k, v) :: ownMembers rest := by
        simp [ownMembers, hheader]
      rw [hown, List.lookup_cons, if_neg Bool.false_ne_true]
      cases name == k with
      | true => rw [Option.map_some, arranged_of_not_hasHeader hheader, Option.some_or]
      | false => exact ih
    | true =>
      have hown : ownMembers ((k, v) :: rest) = ownMembers rest := by simp [ownMembers, hheader]
      rw [hown, if_pos rfl, List.lookup_cons]
      cases hname : name == k with
      | true =>
        have hnone : (ownMembers rest).lookup name = none := by
          refine lookup_eq_none_of_not_mem fun m hm e => hk ?_
          have hmem : m.1 ∈ rest.map Prod.fst := List.mem_map_of_mem (List.mem_filter.1 hm).1
          rwa [← eq_of_beq hname, ← e]
        rw [hnone, Option.none_or, Option.map_some]
      | false => exact ih

theorem length_arranged (members : List (String × Toml)) :
    (ownMembers members ++ innerMembers members).length = members.length := by
  induction members with
  | nil => rfl
  | cons m rest ih =>
    obtain ⟨k, v⟩ := m
    rw [List.length_append] at ih ⊢
    rw [innerMembers]
    cases hheader : v.hasHeader <;> simp [ownMembers, hheader] at ih ⊢ <;> omega

/-- A table or a list with nothing in it. -/
def isHollow : Toml → Bool
  | .table [] => true
  | .array [] => true
  | _ => false

theorem isHollow_arranged (v : Toml) : isHollow (arranged v) = isHollow v := by
  cases v with
  | table members =>
    cases members with
    | nil => rfl
    | cons m rest =>
      have hlength := length_arranged (m :: rest)
      rw [arranged]
      cases harranged : ownMembers (m :: rest) ++ innerMembers (m :: rest) with
      | nil =>
        rw [harranged] at hlength
        cases hlength
      | cons => rfl
  | array items =>
    cases items with
    | nil => rfl
    | cons v rest =>
      rw [arranged]
      split <;> rfl
  | text | integer | float | bool | date => rfl

theorem caseName?_single (k : String) (v : Toml) :
    (Toml.table [(k, v)]).caseName? = if isHollow v then some k else none := by
  cases v with
  | table members => cases members <;> rfl
  | array items => cases items <;> rfl
  | text | integer | float | bool | date => rfl

theorem caseName?_of_length (h : members.length ≠ 1) : (Toml.table members).caseName? = none := by
  unfold caseName?
  split <;> simp_all

/-- The name of a case is told from a table as before. -/
theorem caseName?_arranged (v : Toml) : (arranged v).caseName? = v.caseName? := by
  cases v with
  | table members =>
    have hlength := length_arranged members
    rcases members with _ | ⟨⟨k, u⟩, _ | ⟨m, rest⟩⟩
    · rfl
    · have hsingle : ownMembers [(k, u)] ++ innerMembers [(k, u)] = [(k, arranged u)] := by
        cases hheader : u.hasHeader with
        | false => simp [ownMembers, innerMembers, hheader, arranged_of_not_hasHeader hheader]
        | true => simp [ownMembers, innerMembers, hheader]
      rw [arranged, hsingle, caseName?_single, caseName?_single, isHollow_arranged]
    · rw [arranged, caseName?_of_length (by rw [hlength]; simp), caseName?_of_length (by simp)]
  | array items =>
    rw [arranged]
    split <;> rfl
  | text | integer | float | bool | date => rfl

theorem toNat?_arranged (v : Toml) : (arranged v).toNat? = v.toNat? := by
  cases v with
  | array items =>
    rw [arranged]
    split <;> rfl
  | table | text | integer | float | bool | date => rfl

/-- A list has its items in the order of a file. -/
theorem arranged_array (items : List Toml) :
    arranged (.array items) = .array items ∨
      arranged (.array items) = .array (items.map arranged) := by
  rw [arranged]
  split
  · exact .inr (by rw [arrangedItems_eq])
  · exact .inl rfl

end Toml

/-! ## Schemas -/

mutual

/-- **A value is read the same in the order of a file.** -/
theorem Schema.ofToml?_arranged : {α : Type} → (s : Schema α) → {depth : Nat} → (v : Toml) →
    Writable depth v → s.ofToml? (arranged v) = s.ofToml? v
  | _, .word, _, v, _ => by rw [Schema.ofToml?, Schema.ofToml?, toNat?_arranged]
  | _, .count, _, v, _ => by rw [Schema.ofToml?, Schema.ofToml?, toNat?_arranged]
  | _, .text, _, v, hv => by
    cases hv with
    | @array _ items _ =>
      rcases arranged_array items with h | h
      · rw [h]
      · rw [h]
        rfl
    | table => simp [Schema.ofToml?, arranged]
    | text | integer | bool => rfl
  | _, .choice names, _, v, _ => by rw [Schema.ofToml?, Schema.ofToml?, caseName?_arranged]
  | _, .option item, _, v, hv => by
    rw [Schema.ofToml?, Schema.ofToml?, Schema.ofToml?_arranged item v hv]
  | _, .list item, _, v, hv => by
    cases hv with
    | @array _ items hitems =>
      rcases arranged_array items with h | h
      · rw [h]
      · have hread := mapM_congr fun u hu => Schema.ofToml?_arranged item u (hitems u hu)
        rw [h, Schema.ofToml?, Schema.ofToml?, List.mapM_map]
        exact hread
    | table => simp [Schema.ofToml?, arranged]
    | text | integer | bool => rfl
  | _, .record fields, _, v, hv => by
    cases hv with
    | @array _ items hitems =>
      rcases arranged_array items with h | h
      · rw [h]
      · rw [h, Schema.ofToml?, Schema.ofToml?]
        exact Fields.ofTomlItems?_arranged fields items hitems
    | @table _ members hkeys hmembers =>
      rw [arranged, Schema.ofToml?, Schema.ofToml?]
      exact Fields.ofTable?_arranged fields members _ hmembers (lookup_arranged hkeys)
    | text | integer | bool => rfl
  | _, .via base make _ _ _, _, v, hv => by
    rw [Schema.ofToml?, Schema.ofToml?, Schema.ofToml?_arranged base v hv]

/-- The same for the members of a record. -/
theorem Fields.ofTable?_arranged : {α : Type} → (fs : Fields α) → {depth : Nat} →
    (members members' : List (String × Toml)) → (∀ m ∈ members, Writable depth m.2) →
    (∀ name, members'.lookup name = (members.lookup name).map arranged) →
    fs.ofTable? members' = fs.ofTable? members
  | _, .done, _, members, members', _, _ => by rw [Fields.ofTable?, Fields.ofTable?]
  | _, .field name item fallback rest, _, members, members', hmembers, hlookup => by
    have ih := Fields.ofTable?_arranged rest members members' hmembers hlookup
    rw [Fields.ofTable?, Fields.ofTable?, hlookup name, ih]
    cases hfound : members.lookup name with
    | none => rfl
    | some v =>
      obtain ⟨front, back, rfl, -⟩ := List.lookup_eq_some_iff.1 hfound
      have hv := hmembers (name, v) (by simp)
      simp only [Option.map_some, Schema.ofToml?_arranged item v hv]

/-- The same for the items of a list that stands for a record. -/
theorem Fields.ofTomlItems?_arranged : {α : Type} → (fs : Fields α) → {depth : Nat} →
    (items : List Toml) → (∀ v ∈ items, Writable depth v) →
    fs.ofTomlItems? (items.map arranged) = fs.ofTomlItems? items
  | _, .done, _, items, _ => by rw [Fields.ofTomlItems?, Fields.ofTomlItems?]
  | _, .field name item fallback rest, _, [], hitems => rfl
  | _, .field name item fallback rest, _, v :: items, hitems => by
    have hv := Schema.ofToml?_arranged item v (hitems v List.mem_cons_self)
    have ih := Fields.ofTomlItems?_arranged rest items
      fun u hu => hitems u (List.mem_cons_of_mem v hu)
    rw [List.map_cons, Fields.ofTomlItems?, Fields.ofTomlItems?]
    simp only [hv, List.tail_cons, ih]

end

/-- **A record reads back from the file it is written to.** -/
theorem Schema.exists_parse?_render {α : Type} {s : Schema α} (hs : s.Restores)
    (hdepth : s.depth ≤ depthLimit) {a : α} {members : List (String × Toml)}
    (h : s.toToml? a = some (.table members)) :
    ∃ found, parse? (render members) = some found ∧ s.ofToml? (.table found) = some a := by
  have hwritable := (s.writable_of_toToml? hs a _ h).mono hdepth
  have hfile := s.ofToml?_arranged (.table members) hwritable
  rw [arranged, s.ofToml?_of_toToml? hs a _ h] at hfile
  exact ⟨_, parse?_render hwritable, hfile⟩

end Onboarding
