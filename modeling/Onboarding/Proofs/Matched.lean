import Onboarding.Proofs.Computation
/-!
# Matched outcomes — two computations side by side

The same call is made of two states of different stores. `Matched` says that it gives the
same result on both sides and leaves states that belong together, in one way where it
succeeds and in another where it fails. `Matched.bind` follows both sides one step at a
time, and hands on what each of them did.
-/

namespace Onboarding

/-- Two outcomes with one result, and states that belong together. -/
inductive Matched {ε α S T : Type} (R Q : S → T → Prop) :
    Except ε α × S → Except ε α × T → Prop
  | ok {a : α} {s : S} {t : T} (h : R s t) : Matched R Q (.ok a, s) (.ok a, t)
  | error {e : ε} {s : S} {t : T} (h : Q s t) : Matched R Q (.error e, s) (.error e, t)

namespace Matched

variable {ε α β S T : Type} {R R' Q Q' : S → T → Prop} {s : S} {t : T}

section Outcomes

variable {out : Except ε α × S} {out' : Except ε α × T}

/-- The results are the same. -/
theorem fst_eq (h : Matched R Q out out') : out.1 = out'.1 := by
  cases h <;> rfl

/-- The states belong together, whatever became of the call. -/
theorem snd (h : Matched R R out out') : R out.2 out'.2 := by
  cases h <;> assumption

end Outcomes

variable {x : ExceptT ε (StateM S) α} {y : ExceptT ε (StateM T) α}
  {f : α → ExceptT ε (StateM S) β} {g : α → ExceptT ε (StateM T) β}

/-- **A sequence is matched step by step.** -/
theorem bind (h : Matched R Q (x s) (y t))
    (hrest : ∀ a s' t', x s = (.ok a, s') → y t = (.ok a, t') → R s' t' →
      Matched R' Q (f a s') (g a t')) :
    Matched R' Q ((x >>= f) s) ((y >>= g) t) := by
  rcases hx : x s with ⟨_ | a, s'⟩ <;> rcases hy : y t with ⟨_ | b, t'⟩ <;> rw [hx, hy] at h <;>
    cases h
  · rw [Computation.bind_of_error hx, Computation.bind_of_error hy]
    exact .error ‹_›
  · rw [Computation.bind_of_ok hx, Computation.bind_of_ok hy]
    exact hrest a s' t' hx hy ‹_›

/-- A failure is looked at again on both sides. -/
theorem tryCatch {onLeft : ε → ExceptT ε (StateM S) α} {onRight : ε → ExceptT ε (StateM T) α}
    (h : Matched R Q (x s) (y t))
    (hcaught : ∀ e s' t', Q s' t' → Matched R Q' (onLeft e s') (onRight e t')) :
    Matched R Q' ((MonadExcept.tryCatch x onLeft) s) ((MonadExcept.tryCatch y onRight) t) := by
  rw [Computation.tryCatch_apply, Computation.tryCatch_apply]
  generalize x s = out at h ⊢
  generalize y t = out' at h ⊢
  cases h with
  | ok h => exact .ok h
  | error h => exact hcaught _ _ _ h

end Matched

end Onboarding
