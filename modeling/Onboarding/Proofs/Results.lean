import Mathlib.Data.List.Forall2
/-!
# Results — reads that succeed together

A list is read if each of its items is. These lemmas tell the results of the list from those
of its items and back, and follow what the steps of a fold keep to its end.
-/

namespace Onboarding

variable {ι β : Type} {g g' : ι → Option β} {is : List ι} {bs : List β}

theorem mapM_congr (h : ∀ i ∈ is, g i = g' i) : is.mapM g = is.mapM g' := by
  induction is with
  | nil => rfl
  | cons i is ih =>
    have hi := h i List.mem_cons_self
    have his := ih fun j hj => h j (List.mem_cons_of_mem i hj)
    rw [List.mapM_cons, List.mapM_cons, hi, his]

theorem mapM_eq_some_iff : is.mapM g = some bs ↔ List.Forall₂ (fun i b => g i = some b) is bs := by
  induction is generalizing bs with
  | nil =>
    rw [List.forall₂_nil_left_iff]
    exact ⟨fun h => (Option.some.inj h).symm, fun h => h ▸ rfl⟩
  | cons i is ih =>
    rw [List.mapM_cons, List.forall₂_cons_left_iff]
    constructor
    · intro h
      cases hi : g i with
      | none =>
        rw [hi] at h
        cases h
      | some b =>
        cases his : is.mapM g with
        | none =>
          rw [hi, his] at h
          cases h
        | some bs' =>
          rw [hi, his] at h
          exact ⟨b, bs', rfl, ih.1 his, (Option.some.inj h).symm⟩
    · rintro ⟨b, bs', hi, his, rfl⟩
      rw [hi, ih.2 his]
      rfl

/-- Every result of a list is the result of one of its items. -/
theorem exists_of_mem_mapM (h : is.mapM g = some bs) {b : β} (hb : b ∈ bs) :
    ∃ i ∈ is, g i = some b := by
  have hall := mapM_eq_some_iff.1 h
  induction hall with
  | nil => cases hb
  | @cons i b' is bs hi _ ih =>
    rcases List.mem_cons.1 hb with rfl | hb
    · exact ⟨i, List.mem_cons_self, hi⟩
    · obtain ⟨j, hj, hjb⟩ := ih (mapM_eq_some_iff.2 ‹_›) hb
      exact ⟨j, List.mem_cons_of_mem i hj, hjb⟩

/-- A list whose items all have a result has results. -/
theorem exists_mapM (h : ∀ i ∈ is, ∃ b, g i = some b) : ∃ bs, is.mapM g = some bs := by
  induction is with
  | nil => exact ⟨[], rfl⟩
  | cons i is ih =>
    obtain ⟨b, hb⟩ := h i List.mem_cons_self
    obtain ⟨bs, hbs⟩ := ih fun j hj => h j (List.mem_cons_of_mem i hj)
    exact ⟨b :: bs, mapM_eq_some_iff.2 (.cons hb (mapM_eq_some_iff.1 hbs))⟩

/-- What each step of a fold keeps, the fold does. -/
theorem foldlM_keeps {step : β → ι → Option β} {P : β → Prop}
    (hstep : ∀ i ∈ is, ∀ b b', P b → step b i = some b' → P b') {b b' : β} (hb : P b)
    (h : is.foldlM step b = some b') : P b' := by
  induction is generalizing b with
  | nil =>
    cases h
    exact hb
  | cons i is ih =>
    rw [List.foldlM_cons] at h
    obtain ⟨b₁, hfirst, hrest⟩ := Option.bind_eq_some_iff.1 h
    have hb₁ := hstep i List.mem_cons_self b b₁ hb hfirst
    exact ih (fun j hj => hstep j (List.mem_cons_of_mem i hj)) hb₁ hrest

end Onboarding
