import Mathlib.Tactic.Common
import Std.Data.ExtTreeMap
/-!
# Ordered maps — lookups after a change, and the values in a list

The order of keys decides equality in every map of this project, so lookups are stated
with equality of keys here. Values that know their key are listed once each.
-/

namespace Onboarding

namespace KeyedMap

variable {κ β γ : Type} [Ord κ] [Std.TransOrd κ] [Std.LawfulEqOrd κ]

theorem getElem?_insert [DecidableEq κ] (t : Std.ExtTreeMap κ β) (k a : κ) (v : β) :
    (t.insert k v)[a]? = if a = k then some v else t[a]? := by
  rw [Std.ExtTreeMap.getElem?_insert]
  simp only [Std.compare_eq_iff_eq]
  exact if_congr eq_comm rfl rfl

theorem getElem?_erase [DecidableEq κ] (t : Std.ExtTreeMap κ β) (k a : κ) :
    (t.erase k)[a]? = if a = k then none else t[a]? := by
  rw [Std.ExtTreeMap.getElem?_erase]
  simp only [Std.compare_eq_iff_eq]
  exact if_congr eq_comm rfl rfl

theorem mem_values {t : Std.ExtTreeMap κ β} {v : β} :
    v ∈ t.toList.map (·.2) ↔ ∃ k : κ, t[k]? = some v := by
  constructor
  · intro h
    obtain ⟨e, he, rfl⟩ := List.mem_map.1 h
    exact ⟨e.1, Std.ExtTreeMap.mem_toList_iff_getElem?_eq_some.1 he⟩
  · rintro ⟨k, hk⟩
    exact List.mem_map.2 ⟨(k, v), Std.ExtTreeMap.mem_toList_iff_getElem?_eq_some.2 hk, rfl⟩

/-- What is read from the entries of a map is listed once each if it tells the key of
its entry. -/
theorem nodup_map_toList {t : Std.ExtTreeMap κ β} {f : κ × β → γ} (key : γ → κ)
    (h : ∀ (k : κ) v, t[k]? = some v → key (f (k, v)) = k) : (t.toList.map f).Nodup := by
  refine List.pairwise_map.2 ?_
  -- entries with equal images would have equal keys
  refine Std.ExtTreeMap.distinct_keys_toList.imp_of_mem ?_
  intro a b ha hb hne hf
  have hka := h a.1 a.2 (Std.ExtTreeMap.mem_toList_iff_getElem?_eq_some.1 ha)
  have hkb := h b.1 b.2 (Std.ExtTreeMap.mem_toList_iff_getElem?_eq_some.1 hb)
  refine hne (Std.compare_eq_iff_eq.2 ?_)
  rw [← hka, ← hkb]
  exact congrArg key hf

theorem nodup_keys (t : Std.ExtTreeMap κ β) : (t.toList.map (·.1)).Nodup :=
  nodup_map_toList id fun _ _ _ => rfl

end KeyedMap

end Onboarding
