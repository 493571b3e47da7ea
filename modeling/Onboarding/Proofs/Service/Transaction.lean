import Onboarding.Proofs.Computation
import Onboarding.Proofs.Store.Lawful
import Onboarding.Service.World
/-!
# Transactions — what the steps of a body that succeeds have done

A transaction that fails leaves the store as it was, so of a body only the runs that
succeed matter. Each lemma here reads the result of one step off such a run: `Becomes`
is what a write leaves, and a read or a draw leaves the store alone.
-/

namespace Onboarding

open StoreView

/-- A state that holds `c` and differs from `s` in nothing else that is seen of it. -/
structure Becomes {σ : Type} [Store σ] [StoreView σ] (s : σ) (c : Contents) (s' : σ) : Prop where
  sound : Sound s'
  contents_eq : contents s' = c
  failing_eq : failing s' = failing s
  denylist_eq : Store.isFraudDomain s' = Store.isFraudDomain s

namespace Becomes

variable {σ : Type} [Store σ] [StoreView σ] {s s' s'' : σ} {c c' : Contents}

theorem refl (h : Sound s) : Becomes s (contents s) s := ⟨h, rfl, rfl, rfl⟩

theorem trans (h : Becomes s c s') (h' : Becomes s' c' s'') : Becomes s c' s'' :=
  ⟨h'.sound, h'.contents_eq, h'.failing_eq.trans h.failing_eq,
    h'.denylist_eq.trans h.denylist_eq⟩

end Becomes

/-- A write that succeeded did what it comes to. -/
theorem Written.of_eq_ok {σ : Type} [Store σ] [StoreView σ] {s s' : σ}
    {outcome : Except StoreError Contents → Prop} {mayBreak : Prop}
    {out : Except StoreError Unit × σ} (h : Written s outcome mayBreak out)
    (hout : out = (.ok (), s')) :
    outcome (.ok (contents s')) ∧ Becomes s (contents s') s' := by
  subst hout
  cases h with
  | done sound holds failing denylist => exact ⟨holds, sound, rfl, failing, denylist⟩

namespace TransactionM

variable {σ α : Type} {s s' : σ} {g g' : Randomness}

theorem read_eq_ok {f : σ → Except StoreError α} {a : α}
    (h : read f (s, g) = (.ok a, (s', g'))) : f s = .ok a ∧ s' = s ∧ g' = g := by
  unfold read Body.read at h
  split at h <;> cases h
  exact ⟨‹_›, rfl, rfl⟩

theorem find_eq_ok {f : σ → Except StoreError α} {a? : Option α}
    (h : find f (s, g) = (.ok a?, (s', g'))) : Except.found? (f s) = .ok a? ∧ s' = s ∧ g' = g :=
  read_eq_ok h

theorem write_eq_ok {op : StoreM σ Unit} {u : Unit}
    (h : write op (s, g) = (.ok u, (s', g'))) : op s = (.ok (), s') ∧ g' = g := by
  unfold write Body.write at h
  split at h <;> cases h
  exact ⟨‹_›, rfl⟩

theorem drawCode_eq_ok {f : Randomness → Except RandomFault String × Randomness} {code : String}
    (h : drawCode f (s, g) = (.ok code, (s', g'))) : f g = (.ok code, g') ∧ s' = s := by
  unfold drawCode Body.companion at h
  simp only at h
  split at h <;> cases h
  exact ⟨‹_›, rfl⟩

theorem read_of_ok {f : σ → Except StoreError α} {a : α} (h : f s = .ok a) :
    read f (s, g) = (.ok a, (s, g)) := by
  unfold read Body.read
  rw [h]

theorem find_of_ok {f : σ → Except StoreError α} {a : α} (h : f s = .ok a) :
    find f (s, g) = (.ok (some a), (s, g)) :=
  read_of_ok (by rw [h]; rfl)

theorem find_of_missing {f : σ → Except StoreError α} {key : String}
    (h : f s = .error (.notFound key)) : find f (s, g) = (.ok none, (s, g)) :=
  read_of_ok (by rw [h]; rfl)

theorem write_of_ok {op : StoreM σ Unit} (h : op s = (.ok (), s')) :
    write op (s, g) = (.ok (), (s', g)) := by
  unfold write Body.write
  rw [h]

end TransactionM

/-- A record was found. -/
theorem found?_eq_some {α : Type} {x : Except StoreError α} {a : α}
    (h : Except.found? x = .ok (some a)) : x = .ok a := by
  unfold Except.found? at h
  split at h <;> cases h
  rfl

namespace Store

variable {σ α : Type} [Store σ] {body : TransactionM σ α} {p : σ × Randomness}

/-- A transaction that succeeds is a body that succeeds. -/
theorem transaction_eq_ok {a : α} {p' : σ × Randomness}
    (h : transaction ServiceError.store body p = (.ok a, p')) : body p = (.ok a, p') := by
  unfold transaction at h
  split at h
  · cases h
  · split at h
    · rename_i hbody
      rw [hbody, h]
    · cases h

/-- A transaction that can begin succeeds with its body. -/
theorem transaction_of_ok [LawfulStore σ] {a : α} {p' : σ × Randomness}
    (hbegin : .transaction ∉ failing p.1) (h : body p = (.ok a, p')) :
    transaction ServiceError.store body p = (.ok a, p') := by
  unfold transaction
  rw [LawfulStore.canBegin hbegin, h]

end Store

end Onboarding
