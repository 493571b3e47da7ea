import Mathlib.Data.List.Nodup
import Onboarding.Proofs.Schema.Binary
import Onboarding.Proofs.Store.Lawful
import Onboarding.Proofs.Store.Map
import Onboarding.Store.Indexed
/-!
# Record tables — binary records under their own keys

A table of the indexed store is a table of records if every entry is the bytes of a
record that fits them, under the key of that record (`Records`). Then a lookup decodes,
and the entries are the records, each once.
-/

namespace Onboarding

namespace IndexedStore

variable {α : Type} {schema : Schema α} {key : α → Key} {P : α → Prop}

/-! ## Lists of reads -/

/-- Reads that all succeed succeed together. -/
theorem mapM_ok {ι β ε : Type} {g : ι → Except ε β} {l : List ι}
    (h : ∀ i ∈ l, ∃ b, g i = .ok b) :
    ∃ bs, l.mapM g = .ok bs ∧ List.Forall₂ (fun i b => g i = .ok b) l bs := by
  induction l with
  | nil => exact ⟨[], rfl, .nil⟩
  | cons i r ih =>
    obtain ⟨b, hb⟩ := h i (List.mem_cons_self ..)
    obtain ⟨bs, hbs, hzip⟩ := ih fun j hj => h j (List.mem_cons_of_mem _ hj)
    refine ⟨b :: bs, ?_, .cons hb hzip⟩
    rw [List.mapM_cons, hb, hbs]
    rfl

theorem mem_of_forall₂ {ι β : Type} {R : ι → β → Prop} {l : List ι} {bs : List β}
    (h : List.Forall₂ R l bs) (hR : ∀ i b c, R i b → R i c → b = c) {b : β} :
    b ∈ bs ↔ ∃ i ∈ l, R i b := by
  induction h with
  | nil => simp
  | @cons i c l bs hic _ ih =>
    rw [List.mem_cons, ih]
    constructor
    · rintro (rfl | ⟨j, hj, hb⟩)
      · exact ⟨i, List.mem_cons_self .., hic⟩
      · exact ⟨j, List.mem_cons_of_mem _ hj, hb⟩
    · rintro ⟨j, hj, hb⟩
      rcases List.mem_cons.1 hj with rfl | hj
      · exact .inl (hR j b c hb hic)
      · exact .inr ⟨j, hj, hb⟩

theorem map_eq_of_forall₂ {ι β κ : Type} {R : ι → β → Prop} {l : List ι} {bs : List β}
    {f : β → κ} {g : ι → κ} (h : List.Forall₂ R l bs) (hfg : ∀ i ∈ l, ∀ b, R i b → f b = g i) :
    bs.map f = l.map g := by
  induction h with
  | nil => rfl
  | @cons i b l bs hib _ ih =>
    have hi := hfg i (List.mem_cons_self ..) b hib
    have hr := ih fun j hj => hfg j (List.mem_cons_of_mem _ hj)
    rw [List.map_cons, List.map_cons, hi, hr]

/-! ## Tables of records -/

/-- Every entry of a table is a record with `P` under its key. -/
def Records (schema : Schema α) (key : α → Key) (P : α → Prop) (t : KeyTable) : Prop :=
  ∀ (k : Key) v, t[k]? = some v → ∃ a, P a ∧ key a = k ∧ v = schema.encode a

/-- The record under a key. -/
def recordAt (schema : Schema α) (t : KeyTable) (k : Key) : Option α :=
  t[k]?.bind fun v => (schema.read v).toOption

theorem decode_encode {a : α} (h : schema.Fits a) : decode schema (schema.encode a) = .ok a := by
  rw [decode, Schema.read_encode schema h]

theorem find_eq {t : KeyTable} {k : Key} (what : String) (h : k ≠ []) :
    find t k what = match t[k]? with
      | none => .error (.notFound what)
      | some v => .ok v := by
  unfold find KeyTable.get
  rw [if_neg h]
  cases t[k]? <;> rfl

namespace Records

variable {t : KeyTable}

theorem empty : Records schema key P ∅ := fun k v h => by
  rw [Std.ExtTreeMap.getElem?_empty] at h
  cases h

theorem mono {Q : α → Prop} (ht : Records schema key P t) (h : ∀ a, P a → Q a) :
    Records schema key Q t := fun k v hv =>
  (ht k v hv).imp fun a ha => ⟨h a ha.1, ha.2⟩

/-- What stands under a key is the bytes of the record there. -/
theorem recordAt_eq_some (ht : Records schema key P t) (hP : ∀ a, P a → schema.Fits a) {k : Key}
    {a : α} : recordAt schema t k = some a ↔ t[k]? = some (schema.encode a) ∧ P a ∧ key a = k := by
  unfold recordAt
  constructor
  · intro h
    obtain ⟨v, hv, ha⟩ := Option.bind_eq_some_iff.1 h
    obtain ⟨b, hb, hkey, rfl⟩ := ht k v hv
    rw [Schema.read_encode schema (hP b hb)] at ha
    cases ha
    exact ⟨hv, hb, hkey⟩
  · rintro ⟨hv, ha, -⟩
    rw [hv, Option.bind_some, Schema.read_encode schema (hP a ha)]
    rfl

theorem recordAt_eq_none (ht : Records schema key P t) (hP : ∀ a, P a → schema.Fits a) {k : Key} :
    recordAt schema t k = none ↔ t[k]? = none := by
  constructor
  · intro h
    cases hv : t[k]? with
    | none => rfl
    | some v =>
      obtain ⟨a, ha, hkey, rfl⟩ := ht k v hv
      rw [(recordAt_eq_some ht hP).2 ⟨hv, ha, hkey⟩] at h
      cases h
  · intro h
    rw [recordAt, h, Option.bind_none]

/-- Looking a record up finds the record there. -/
theorem search (ht : Records schema key P t) (hP : ∀ a, P a → schema.Fits a) (k : Key)
    (what : String) {mayBreak : Prop} (hbreak : k = [] → mayBreak) :
    Search what (recordAt schema t k = some ·) mayBreak (find t k what >>= decode schema) := by
  by_cases hk : k = []
  · subst hk
    exact .broken (hbreak rfl)
  rw [find_eq what hk]
  cases hv : t[k]? with
  | none =>
    refine .missing fun a ha => ?_
    rw [(recordAt_eq_none ht hP).2 hv] at ha
    cases ha
  | some v =>
    obtain ⟨a, ha, hkey, rfl⟩ := ht k v hv
    have hdecode : (Except.ok (schema.encode a) >>= decode schema) = .ok a :=
      decode_encode (hP a ha)
    rw [hdecode]
    exact .found ((recordAt_eq_some ht hP).2 ⟨hv, ha, hkey⟩)

/-- A record that is found is found by its key. -/
theorem lookup (ht : Records schema key P t) (hP : ∀ a, P a → schema.Fits a) {k : Key} {a : α}
    (h : recordAt schema t k = some a) (hk : k ≠ []) (what : String) :
    (find t k what >>= decode schema) = .ok a := by
  obtain ⟨hv, ha, -⟩ := (recordAt_eq_some ht hP).1 h
  rw [find_eq what hk, hv]
  exact decode_encode (hP a ha)

/-- Every record is listed, once. -/
theorem decodeAll (ht : Records schema key P t) (hP : ∀ a, P a → schema.Fits a) :
    ∃ as, IndexedStore.decodeAll schema t = .ok as ∧ as.Nodup ∧
      ∀ a, a ∈ as ↔ recordAt schema t (key a) = some a := by
  have hentry : ∀ e ∈ t.toList, ∃ a, decode schema e.2 = .ok a ∧ recordAt schema t e.1 = some a ∧
      key a = e.1 := by
    intro e he
    have hv := Std.ExtTreeMap.mem_toList_iff_getElem?_eq_some.1 he
    obtain ⟨a, ha, hkey, hbytes⟩ := ht e.1 e.2 hv
    refine ⟨a, hbytes ▸ decode_encode (hP a ha), ?_, hkey⟩
    exact (recordAt_eq_some ht hP).2 ⟨hbytes ▸ hv, ha, hkey⟩
  obtain ⟨as, has, hzip⟩ := mapM_ok fun e he => (hentry e he).imp fun a h => h.1
  -- what is listed has the keys of the table, which differ
  have hkeys : as.map key = t.toList.map (·.1) := by
    refine map_eq_of_forall₂ hzip fun e he a ha => ?_
    obtain ⟨b, hb, -, hkey⟩ := hentry e he
    rw [hb] at ha
    cases ha
    exact hkey
  refine ⟨as, has, ?_, fun a => ?_⟩
  · refine List.Nodup.of_map key ?_
    rw [hkeys]
    exact KeyedMap.nodup_keys t
  · rw [mem_of_forall₂ hzip fun e b c hb hc => Except.ok.inj (hb.symm.trans hc)]
    constructor
    · rintro ⟨e, he, ha⟩
      obtain ⟨b, hb, hrecord, hkey⟩ := hentry e he
      rw [hb] at ha
      cases ha
      rw [hkey]
      exact hrecord
    · intro h
      obtain ⟨hv, ha, -⟩ := (recordAt_eq_some ht hP).1 h
      exact ⟨_, Std.ExtTreeMap.mem_toList_iff_getElem?_eq_some.2 hv, decode_encode (hP a ha)⟩

/-- A record put under its key stands there, and nothing else moves. -/
theorem insert (ht : Records schema key P t) {a : α} (ha : P a) :
    Records schema key P (t.insert (key a) (schema.encode a)) := by
  intro k v h
  rw [KeyedMap.getElem?_insert] at h
  split at h
  · rename_i hk
    cases h
    exact ⟨a, ha, hk.symm, rfl⟩
  · exact ht k v h

end Records

theorem recordAt_insert (t : KeyTable) {a : α} (h : schema.Fits a) (k : Key) :
    recordAt schema (t.insert (key a) (schema.encode a)) k =
      if k = key a then some a else recordAt schema t k := by
  unfold recordAt
  rw [KeyedMap.getElem?_insert]
  split
  · rw [Option.bind_some, Schema.read_encode schema h]
    rfl
  · rfl

end IndexedStore

end Onboarding
