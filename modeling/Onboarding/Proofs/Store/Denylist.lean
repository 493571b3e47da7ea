import Mathlib.Data.List.Flatten
import Mathlib.Data.List.Induction
import Onboarding.Proofs.Domain
import Onboarding.Proofs.Store.Kind
/-!
# Denylists — what a store answers of the domains that were put on its list

One store cuts an entry to what an email could have as its domain, the other cuts it when
it makes a key of it. For entries that are short enough for a key and are no email
themselves the two come to the same `denialKey`, and a store that was seeded with such
entries answers by their keys alone (`Store.isFraudDomain_seeded`).
-/

namespace Onboarding

open StoreView

/-- An entry that every store can put on its list, unless nothing is left of it. -/
structure IsDenylistEntry (domain : String) : Prop where
  short : byteLength domain ≤ KeyTable.maxKeyLength
  unaddressed : '@' ∉ domain.toList

/-- What an entry is cut to before it is listed. -/
def denialKey (domain : String) : String :=
  asciiLower (String.ofList (trimDomain domain.toList))

theorem denialKey_eq_empty {domain : String} :
    denialKey domain = "" ↔ trimDomain domain.toList = [] := by
  unfold denialKey asciiLower
  rw [String.toList_ofList, ← String.toList_inj, String.toList_ofList]
  exact List.map_eq_nil_iff

theorem IsPlainDomain.denialKey_eq {cs : List Char} (h : IsPlainDomain cs) :
    denialKey (String.ofList cs) = asciiLower (String.ofList cs) := by
  unfold denialKey
  rw [String.toList_ofList, h.trimDomain_eq]

theorem IsPlainDomain.asciiLower_ne {cs : List Char} (h : IsPlainDomain cs) :
    asciiLower (String.ofList cs) ≠ "" := by
  rw [← h.denialKey_eq, Ne, denialKey_eq_empty, String.toList_ofList, h.trimDomain_eq]
  exact h.ne_nil

/-- Cutting an entry does not make it longer. -/
theorem byteLength_denialKey_le (domain : String) :
    byteLength (denialKey domain) ≤ byteLength domain := by
  unfold denialKey
  rw [byteLength_asciiLower]
  unfold byteLength Utf8.bytes
  rw [String.toList_ofList]
  exact ((trimDomain_sublist _).flatMap _).length_le

/-- A text behind an `@` of its own is a domain as it stands. -/
theorem emailDomain?_at {domain : String} (h : '@' ∉ domain.toList) :
    emailDomain? ("@" ++ domain) =
      if trimDomain domain.toList = [] then none else some (denialKey domain) := by
  have htext : ("@" ++ domain).toList = '@' :: domain.toList := by
    rw [String.toList_append]
    rfl
  have hcut : splitLast? '@' ('@' :: domain.toList) = some ([], domain.toList) :=
    splitLast?_eq_some_iff.2 ⟨rfl, h⟩
  unfold emailDomain?
  rw [htext, hcut]
  dsimp only
  split
  · rename_i hcut
    rw [if_pos hcut]
  · rename_i hcut
    rw [if_neg hcut]
    rfl

/-- A lawful store that answers for what was put on its denylist. -/
class DenyingStore (σ : Type) [Store σ] [LawfulStore σ] where
  /-- The denylist of a state holds a key. -/
  Denies : σ → String → Prop
  not_denies_empty (key : String) : ¬ Denies (Store.empty : σ) key
  isFraudDomain {s : σ} {cs : List Char} : failing s = [] → IsPlainDomain cs →
    ∃ listed, Store.isFraudDomain s (String.ofList cs) = .ok listed ∧
      (listed = true ↔ Denies s (asciiLower (String.ofList cs)))
  isFraudDomain_failOn {s : σ} : failing s = [] →
    Store.isFraudDomain (failOn [] s) = Store.isFraudDomain s
  putFraudDomain {s s' : σ} {domain : String} : Sound s → failing s = [] →
    IsDenylistEntry domain → s' = (Store.alone (Store.putFraudDomain domain) s).2 →
    Sound s' ∧ contents s' = contents s ∧ failing s' = [] ∧
      ∀ key, key ≠ "" → (Denies s' key ↔ Denies s key ∨ key = denialKey domain)

namespace TableStore

variable {s : TableStore}

/-- An entry of which something is left is listed. -/
theorem putFraudDomain_eq (hsafe : s.failing = []) {domain : String}
    (hdomain : IsDenylistEntry domain) :
    (Store.alone (putFraudDomain domain) s).2 = if denialKey domain = "" then s else
      { s with
        fraudDomains := s.fraudDomains.insert (denialKey domain) ()
        writes := s.writes + 1 } := by
  unfold Store.alone putFraudDomain
  rw [emailDomain?_at hdomain.unaddressed]
  by_cases hempty : trimDomain domain.toList = []
  · rw [if_pos hempty, if_pos (denialKey_eq_empty.2 hempty)]
  · rw [if_neg hempty, if_neg (mt denialKey_eq_empty.1 hempty)]
    dsimp only
    unfold write
    rw [read_of_quiet hsafe]

instance : DenyingStore TableStore where
  Denies s key := key ∈ s.fraudDomains
  not_denies_empty _ := Std.ExtTreeMap.not_mem_empty
  isFraudDomain hsafe _ := ⟨_, read_of_quiet hsafe _ _, Std.ExtTreeMap.contains_iff_mem⟩
  isFraudDomain_failOn {s} hsafe := by
    have hsame : failOn [] s = s := by
      obtain ⟨registrations, referrals, domains, ops, writes⟩ := s
      cases hsafe
      rfl
    rw [hsame]
  putFraudDomain {s s'} domain hs hsafe hdomain hs' := by
    have hput : s' = _ := hs'.trans (putFraudDomain_eq hsafe hdomain)
    split at hput
    · rename_i hempty
      subst hput
      refine ⟨hs, rfl, hsafe, fun key hkey => ?_⟩
      rw [hempty]
      exact (or_iff_left hkey).symm
    · subst hput
      refine ⟨hs, rfl, hsafe, fun key _ => ?_⟩
      rw [Std.ExtTreeMap.mem_insert, Std.compare_eq_iff_eq, or_comm]
      exact or_congr_right eq_comm

end TableStore

namespace IndexedStore

variable {s : IndexedStore}

theorem domainKey_eq (domain : String) : domainKey domain = Utf8.bytes (denialKey domain) := rfl

/-- The denylist is in none of the tables that records and indexes are in. -/
theorem Sound.withDomains (hs : Sound s) (t : KeyTable) : Sound { s with fraudDomains := t } :=
  ⟨hs.registrations, hs.referrals, hs.codes, hs.bound, hs.indexed, hs.pairs⟩

theorem putFraudDomain_eq {domain : String} (hdomain : IsDenylistEntry domain) :
    (Store.alone (Store.putFraudDomain domain) s).2 = if denialKey domain = "" then s else
      { s with fraudDomains := s.fraudDomains.insert (Utf8.bytes (denialKey domain)) [] } := by
  show (Store.alone (put .fraudDomains (Utf8.bytes (denialKey domain)) []) s).2 = _
  unfold Store.alone
  by_cases hempty : denialKey domain = ""
  · have hput : put .fraudDomains (Utf8.bytes (denialKey domain)) [] s =
        (.error KeyTable.badKey, s) := by
      unfold put change KeyTable.put
      dsimp only
      rw [if_pos (Or.inl (Utf8.bytes_eq_nil.2 hempty))]
    rw [hput, if_pos hempty]
  · have hkey : KeyTable.IsKey (Utf8.bytes (denialKey domain)) :=
      ⟨mt Utf8.bytes_eq_nil.1 hempty, (byteLength_denialKey_le domain).trans hdomain.short⟩
    rw [put_eq _ hkey, if_neg hempty]
    rfl

/-- A plain domain is its own key. -/
theorem isFraudDomain_eq {cs : List Char} (hcs : IsPlainDomain cs) :
    s.isFraudDomain (String.ofList cs) =
      .ok s.fraudDomains[Utf8.bytes (asciiLower (String.ofList cs))]?.isSome := by
  unfold isFraudDomain KeyTable.get
  rw [domainKey_eq, hcs.denialKey_eq, if_neg (mt Utf8.bytes_eq_nil.1 hcs.asciiLower_ne)]
  rfl

instance : DenyingStore IndexedStore where
  Denies s key := Utf8.bytes key ∈ s.fraudDomains
  not_denies_empty _ := Std.ExtTreeMap.not_mem_empty
  isFraudDomain _ hcs := ⟨_, isFraudDomain_eq hcs, Std.ExtTreeMap.mem_iff_isSome_getElem?.symm⟩
  isFraudDomain_failOn _ := rfl
  putFraudDomain {s s'} domain hs _ hdomain hs' := by
    rw [putFraudDomain_eq hdomain] at hs'
    split at hs'
    · rename_i hempty
      subst hs'
      refine ⟨hs, rfl, rfl, fun key hkey => ?_⟩
      rw [hempty]
      exact (or_iff_left hkey).symm
    · subst hs'
      refine ⟨Sound.withDomains hs _, rfl, rfl, fun key _ => ?_⟩
      rw [Std.ExtTreeMap.mem_insert, Std.compare_eq_iff_eq, Utf8.bytes_inj, or_comm]
      exact or_congr_right eq_comm

end IndexedStore

instance (kind : StoreKind) : DenyingStore kind.State :=
  match kind with
  | .table => inferInstanceAs (DenyingStore TableStore)
  | .indexed => inferInstanceAs (DenyingStore IndexedStore)

/-! ## Seeding -/

/-- A store with nothing but these entries on its denylist. -/
def Store.seeded (σ : Type) [Store σ] (domains : List String) : σ :=
  domains.foldl (fun s domain => (Store.alone (Store.putFraudDomain domain) s).2) Store.empty

section Seeded

variable {σ : Type} [Store σ] [LawfulStore σ] [DenyingStore σ]

/-- A seeded store is sound, holds no record, and denies the keys of its entries. -/
theorem Store.seeded_spec (domains : List String) (hdomains : ∀ d ∈ domains, IsDenylistEntry d) :
    Sound (Store.seeded σ domains) ∧ contents (Store.seeded σ domains) = .empty ∧
      failing (Store.seeded σ domains) = [] ∧
      ∀ key, key ≠ "" → (DenyingStore.Denies (Store.seeded σ domains) key ↔
        key ∈ domains.map denialKey) := by
  induction domains using List.reverseRecOn with
  | nil =>
    refine ⟨LawfulStore.sound_empty, LawfulStore.contents_empty, LawfulStore.failing_empty,
      fun key _ => ?_⟩
    exact iff_of_false (DenyingStore.not_denies_empty key) List.not_mem_nil
  | append_singleton domains d ih =>
    obtain ⟨hsound, hcontents, hsafe, hdenies⟩ := ih fun d' hd' =>
      hdomains d' (List.mem_append_left _ hd')
    obtain ⟨hsound', hcontents', hsafe', hdenies'⟩ := DenyingStore.putFraudDomain hsound hsafe
      (hdomains d (by simp)) rfl
    unfold Store.seeded at hsound' hcontents' hsafe' hdenies' ⊢
    rw [List.foldl_concat]
    refine ⟨hsound', hcontents'.trans hcontents, hsafe', fun key hkey => ?_⟩
    rw [hdenies' key hkey, List.map_append, List.mem_append, List.map_singleton,
      List.mem_singleton]
    exact or_congr_left (hdenies key hkey)

/-- **A seeded store answers by the keys of its entries.** -/
theorem Store.isFraudDomain_seeded {domains : List String}
    (hdomains : ∀ d ∈ domains, IsDenylistEntry d) {cs : List Char} (hcs : IsPlainDomain cs) :
    Store.isFraudDomain (Store.seeded σ domains) (String.ofList cs) =
      .ok (decide (asciiLower (String.ofList cs) ∈ domains.map denialKey)) := by
  obtain ⟨-, -, hsafe, hdenies⟩ := Store.seeded_spec (σ := σ) domains hdomains
  obtain ⟨listed, hanswer, hlisted⟩ := DenyingStore.isFraudDomain hsafe hcs
  rw [hanswer]
  refine congrArg Except.ok ?_
  rw [hdenies _ hcs.asciiLower_ne] at hlisted
  exact Bool.eq_iff_iff.2 (hlisted.trans decide_eq_true_iff.symm)

end Seeded

end Onboarding
