import Mathlib.Tactic.Common
/-!
# Computations — steps that may fail, one after the other

The operations of a store, the bodies of transactions and the calls on the service are
all functions from a state to a result and a state. These lemmas run such a function
one step forward, or tell from a result that was reached what its first step was.
-/

namespace Onboarding

namespace Computation

variable {ε σ α β : Type} {x : ExceptT ε (StateM σ) α} {f : α → ExceptT ε (StateM σ) β}
  {s s' t : σ} {a : α} {b : β} {e : ε}

theorem bind_apply (x : ExceptT ε (StateM σ) α) (f : α → ExceptT ε (StateM σ) β) (s : σ) :
    (x >>= f) s = match x s with
      | (.ok a, s') => f a s'
      | (.error e, s') => (.error e, s') := by
  simp only [bind, ExceptT.bind, ExceptT.mk, ExceptT.bindCont, StateT.bind]
  rcases x s with ⟨_ | _, _⟩ <;> rfl

theorem tryCatch_apply (x : ExceptT ε (StateM σ) α) (f : ε → ExceptT ε (StateM σ) α) (s : σ) :
    (tryCatch x f) s = match x s with
      | (.ok a, s') => (.ok a, s')
      | (.error e, s') => f e s' := by
  simp only [tryCatch, tryCatchThe, MonadExceptOf.tryCatch, ExceptT.tryCatch, ExceptT.mk, bind,
    StateT.bind]
  rcases x s with ⟨_ | _, _⟩ <;> rfl

/-! ## Forwards -/

theorem bind_of_ok (h : x s = (.ok a, s')) : (x >>= f) s = f a s' := by
  rw [bind_apply, h]

theorem bind_of_error (h : x s = (.error e, s')) : (x >>= f) s = (.error e, s') := by
  rw [bind_apply, h]

theorem throw_bind (e : ε) (f : α → ExceptT ε (StateM σ) β) (s : σ) :
    ((throw e : ExceptT ε (StateM σ) α) >>= f) s = (.error e, s) :=
  bind_of_error rfl

/-- What is returned at the end changes no state. -/
theorem bind_pure_snd (x : ExceptT ε (StateM σ) α) (f : α → β) (s : σ) :
    ((x >>= fun a => pure (f a)) s).2 = (x s).2 := by
  rw [bind_apply]
  rcases x s with ⟨_ | _, _⟩ <;> rfl

/-! ## Backwards -/

/-- A sequence succeeds only if its steps do. -/
theorem bind_eq_ok (h : (x >>= f) s = (.ok b, t)) :
    ∃ a s', x s = (.ok a, s') ∧ f a s' = (.ok b, t) := by
  rw [bind_apply] at h
  split at h
  · exact ⟨_, _, ‹_›, h⟩
  · cases h

/-- A sequence does not fail in a way in which none of its steps does. -/
theorem bind_ne_error (hx : (x s).1 ≠ .error e) (hf : ∀ a s', (f a s').1 ≠ .error e) :
    ((x >>= f) s).1 ≠ .error e := by
  rw [bind_apply]
  split
  · exact hf _ _
  · rename_i hstep
    rw [hstep] at hx
    exact fun h => hx (congrArg Except.error (Except.error.inj h))

/-! ## Whatever the result -/

/-- From a state with `I` the computation leads to one with `I`, and if it fails then in a
way that `E` allows. -/
def Ensures (I : σ → Prop) (E : ε → Prop) (x : ExceptT ε (StateM σ) α) : Prop :=
  ∀ s, I s → I (x s).2 ∧ ∀ e, (x s).1 = .error e → E e

/-- What holds of the state before holds of it after, however the computation ends. -/
abbrev Preserves (I : σ → Prop) (x : ExceptT ε (StateM σ) α) : Prop :=
  Ensures I (fun _ => True) x

namespace Ensures

variable {I : σ → Prop} {E : ε → Prop}

theorem of_snd (h : ∀ s, I s → I (x s).2) : Preserves I x :=
  fun s hs => ⟨h s hs, fun _ _ => trivial⟩

theorem snd (h : Ensures I E x) {s : σ} (hs : I s) : I (x s).2 := (h s hs).1

theorem pure (a : α) : Ensures I E (pure a : ExceptT ε (StateM σ) α) := fun _ hs => ⟨hs, nofun⟩

theorem throw (he : E e) : Ensures I E (throw e : ExceptT ε (StateM σ) α) := by
  refine fun s hs => ⟨hs, fun e' h => ?_⟩
  cases h
  exact he

/-- A sequence ensures what each of its steps does. -/
theorem bind (hx : Ensures I E x) (hf : ∀ a, Ensures I E (f a)) : Ensures I E (x >>= f) := by
  intro s hs
  have hstep := hx s hs
  rw [bind_apply]
  split <;> rename_i hout <;> rw [hout] at hstep
  · exact hf _ _ hstep.1
  · exact ⟨hstep.1, fun e h => Except.error.inj h ▸ hstep.2 _ rfl⟩

/-- So does a step that is made good when it fails. -/
theorem tryCatch {x : ExceptT ε (StateM σ) α} {f : ε → ExceptT ε (StateM σ) α}
    (hx : Ensures I E x) (hf : ∀ e, E e → Ensures I E (f e)) : Ensures I E (tryCatch x f) := by
  intro s hs
  have hstep := hx s hs
  rw [tryCatch_apply]
  split <;> rename_i hout <;> rw [hout] at hstep
  · exact ⟨hstep.1, nofun⟩
  · exact hf _ (hstep.2 _ rfl) _ hstep.1

end Ensures

end Computation

/-- A result that was changed succeeds only if it did before. -/
theorem map_eq_ok {α β ε : Type} {f : α → β} {x : Except ε α} {b : β} (h : x.map f = .ok b) :
    ∃ a, x = .ok a ∧ f a = b := by
  cases x with
  | error e => cases h
  | ok a => exact ⟨a, rfl, Except.ok.inj h⟩

end Onboarding
