import Onboarding.Proofs.Computation
import Onboarding.Proofs.Json.Draft
import Onboarding.Schema.Json
/-!
# JSON records — no text of a record is longer than the document

`Schema.Within` bounds the texts in a value of a schema, those that come from a fallback
aside. `Schema.within_ofJsonFront` gives the bound for what is read from a document: the
number of characters in it.
-/

namespace Onboarding

mutual

/-- No text in a value has more than `n` characters, unless it stands in for something
that was left out. -/
def Schema.Within (n : Nat) : {α : Type} → Schema α → α → Prop
  | _, .word, _ => True
  | _, .count, _ => True
  | _, .text, s => s.toList.length ≤ n
  | _, .choice _, _ => True
  | _, .option _, none => True
  | _, .option item, some a => item.Within n a
  | _, .list item, as => ∀ a ∈ as, item.Within n a
  | _, .record fields, a => fields.Within n a
  | _, .via base _ get _ _, b => base.Within n (get b)

/-- The same for the members of a record. -/
def Fields.Within (n : Nat) : {α : Type} → Fields α → α → Prop
  | _, .done, () => True
  | _, .field _ item fallback rest, (a, b) =>
    (fallback = some a ∨ item.Within n a) ∧ rest.Within n b

end

/-- The same for the members that were read so far. -/
def Fields.SlotsWithin (n : Nat) : {α : Type} → (fs : Fields α) → fs.Slots → Prop
  | _, .done, _ => True
  | _, .field _ item _ rest, slots =>
    (∀ a, slots.head = some a → item.Within n a) ∧ rest.SlotsWithin n slots.tail

variable {n : Nat}

theorem Fields.slotsWithin_noSlots : {α : Type} → (fs : Fields α) → fs.SlotsWithin n fs.noSlots
  | _, .done => trivial
  | _, .field _ _ _ rest => ⟨nofun, rest.slotsWithin_noSlots⟩

/-- What stands in for a value that is left out holds no text. -/
theorem Schema.within_absent? : {α : Type} → (s : Schema α) → (a : α) → s.absent? = some a →
    s.Within n a
  | _, .option item, a, h => by
    cases h
    exact trivial
  | _, .via base make get get_make _, b, h => by
    obtain ⟨a, ha, rfl⟩ := Option.map_eq_some_iff.1 h
    show base.Within n (get (make a))
    rw [get_make]
    exact base.within_absent? a ha

/-- A record is within what was read of it. -/
theorem Fields.within_ofSlots : {α : Type} → (fs : Fields α) → (slots : fs.Slots) → (a : α) →
    fs.SlotsWithin n slots → fs.ofSlots slots = .ok a → fs.Within n a
  | _, .done, _, (), _, _ => trivial
  | _, .field _ item fallback rest, slots, (a, b), hslots, h => by
    unfold Fields.ofSlots at h
    split at h
    · cases h
    · rename_i a' ha'
      cases hrest : rest.ofSlots slots.tail with
      | error e =>
        rw [hrest] at h
        cases h
      | ok b' =>
        rw [hrest] at h
        cases h
        refine ⟨?_, rest.within_ofSlots slots.tail b hslots.2 hrest⟩
        -- a slot that was filled is within, one that was not holds the fallback
        cases hhead : slots.head with
        | some c =>
          rw [hhead] at ha'
          cases ha'
          exact .inr (hslots.1 a hhead)
        | none =>
          rw [hhead] at ha'
          cases fallback with
          | some c => exact .inl ha'
          | none => exact .inr (item.within_absent? a ha')

/-! ## Lists of drafts -/

/-- What reads that succeed together gave, one of them gave. -/
theorem mem_of_mapM {ι β ε : Type} {g : ι → Except ε β} {l : List ι} {bs : List β}
    (h : l.mapM g = .ok bs) {b : β} (hb : b ∈ bs) : ∃ i ∈ l, g i = .ok b := by
  induction l generalizing bs with
  | nil =>
    cases h
    cases hb
  | cons i l ih =>
    rw [List.mapM_cons] at h
    cases hi : g i with
    | error e =>
      rw [hi] at h
      cases h
    | ok c =>
      cases hl : l.mapM g with
      | error e =>
        rw [hi, hl] at h
        cases h
      | ok cs =>
        rw [hi, hl] at h
        cases h
        rcases List.mem_cons.1 hb with rfl | hb
        · exact ⟨i, List.mem_cons_self, hi⟩
        · obtain ⟨j, hj, hjb⟩ := ih hl hb
          exact ⟨j, List.mem_cons_of_mem _ hj, hjb⟩

theorem Draft.AllWithin.mem {items : List Draft} (h : Draft.AllWithin n items) {d : Draft}
    (hd : d ∈ items) : d.Within n := by
  induction items with
  | nil => cases hd
  | cons i items ih =>
    rcases List.mem_cons.1 hd with rfl | hd
    · exact h.1
    · exact ih h.2 hd

/-- What one member after the other keeps, all of them keep. -/
theorem Draft.MembersWithin.foldlM {β ε : Type} {P : β → Prop} {g : β → String × Draft → Except ε β}
    {members : List (String × Draft)} (h : Draft.MembersWithin n members)
    (hstep : ∀ b name d b', d.Within n → P b → g b (name, d) = .ok b' → P b') {b b' : β}
    (hb : P b) (hfold : members.foldlM g b = .ok b') : P b' := by
  induction members generalizing b with
  | nil =>
    cases hfold
    exact hb
  | cons m members ih =>
    obtain ⟨name, d⟩ := m
    rw [List.foldlM_cons] at hfold
    cases hg : g b (name, d) with
    | error e =>
      rw [hg] at hfold
      cases hfold
    | ok c =>
      rw [hg] at hfold
      exact ih h.2 (hstep b name d c h.1 hb hg) hfold

theorem Draft.closing_eq_ok {α : Type} {closed : Bool} {a b : α}
    (h : Draft.closing closed a = .ok b) : b = a := by
  unfold Draft.closing at h
  split at h <;> cases h
  rfl

/-! ## Reading -/

mutual

/-- **A value is within the draft it was read from.** -/
theorem Schema.within_ofDraft : {α : Type} → (s : Schema α) → (d : Draft) → (a : α) →
    d.Within n → s.ofDraft d = .ok a → s.Within n a
  | _, .word, _, _, _, _ => trivial
  | _, .count, _, _, _, _ => trivial
  | _, .choice _, _, _, _, _ => trivial
  | _, .text, d, s, hd, h => by
    unfold Schema.ofDraft Draft.string at h
    split at h <;> cases h
    exact hd
  | _, .option _, _, none, _, _ => trivial
  | _, .option item, d, some a, hd, h => by
    have hitem : ∃ a', item.ofDraft d = .ok a' ∧ some a' = some a := by
      cases d with
      | null => cases h
      | _ => exact map_eq_ok h
    obtain ⟨a', ha', hsome⟩ := hitem
    cases hsome
    exact item.within_ofDraft d a hd ha'
  | _, .list item, d, as, hd, h => by
    cases d with
    | array items closed =>
      unfold Schema.ofDraft at h
      split at h
      · cases h
      · rename_i as' has
        obtain rfl := Draft.closing_eq_ok h
        intro a ha
        obtain ⟨i, hi, hia⟩ := mem_of_mapM has ha
        exact item.within_ofDraft i a (Draft.AllWithin.mem hd hi) hia
    | _ => cases h
  | _, .record fields, d, a, hd, h => by
    cases d with
    | object members closed =>
      unfold Schema.ofDraft at h
      split at h
      · cases h
      · rename_i slots hfold
        split at h
        · cases h
        · rename_i slots' hclosing
          obtain rfl := Draft.closing_eq_ok hclosing
          have hslots := Draft.MembersWithin.foldlM (P := fields.SlotsWithin n) hd
            (fun slots name d slots' hd hslots hplace =>
              fields.within_place name d slots slots' hd hslots hplace)
            fields.slotsWithin_noSlots hfold
          exact fields.within_ofSlots _ a hslots h
    | array items closed => exact fields.within_ofItems closed items a hd h
    | _ => cases h
  | _, .via base make get get_make _, d, b, hd, h => by
    obtain ⟨a, ha, rfl⟩ := map_eq_ok h
    show base.Within n (get (make a))
    rw [get_make]
    exact base.within_ofDraft d a hd ha

/-- A member that is put into its slot is within its draft. -/
theorem Fields.within_place : {α : Type} → (fs : Fields α) → (name : String) → (d : Draft) →
    (slots slots' : fs.Slots) → d.Within n → fs.SlotsWithin n slots →
    fs.place name d slots = .ok slots' → fs.SlotsWithin n slots'
  | _, .done, _, _, _, _, _, _, _ => trivial
  | _, .field name item _ rest, key, d, slots, slots', hd, hslots, h => by
    unfold Fields.place at h
    split at h
    · split at h
      · cases h
      · obtain ⟨a, ha, rfl⟩ := map_eq_ok h
        refine ⟨?_, hslots.2⟩
        rintro _ ⟨⟩
        exact item.within_ofDraft d a hd ha
    · obtain ⟨others, hothers, rfl⟩ := map_eq_ok h
      exact ⟨hslots.1, rest.within_place key d slots.tail others hd hslots.2 hothers⟩

/-- A record that stands as an array is within its items. -/
theorem Fields.within_ofItems : {α : Type} → (fs : Fields α) → (closed : Bool) →
    (items : List Draft) → (a : α) → Draft.AllWithin n items → fs.ofItems closed items = .ok a →
    fs.Within n a
  | _, .done, _, _, (), _, _ => trivial
  | _, .field _ item fallback rest, closed, d :: ds, (a, b), hitems, h => by
    unfold Fields.ofItems at h
    split at h
    · cases h
    · rename_i a' ha'
      obtain ⟨b', hb', hpair⟩ := map_eq_ok h
      cases hpair
      exact ⟨.inr (item.within_ofDraft d a hitems.1 ha'),
        rest.within_ofItems closed ds b hitems.2 hb'⟩
  | _, .field _ item fallback rest, closed, [], (a, b), hitems, h => by
    unfold Fields.ofItems at h
    split at h
    · cases h
    · split at h
      · cases h
      · obtain ⟨b', hb', hpair⟩ := map_eq_ok h
        cases hpair
        exact ⟨.inl rfl, rest.within_ofItems closed [] b hitems hb'⟩

end

/-- **No text of a record is longer than the document** that it was read from. -/
theorem Schema.within_ofJsonFront {α : Type} (s : Schema α) {text : String} {a : α}
    (h : s.ofJsonFront text = .ok a) : s.Within text.toList.length a :=
  s.within_ofDraft _ a (Draft.within_ofText text) h

end Onboarding
