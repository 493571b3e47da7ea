import Mathlib.Data.List.TakeWhile
/-!
# Spans — how far a scan goes

A scan takes characters of a class and stops in front of the first one that is not in it.
Where a run of the class and what follows it are known, both halves of the scan are.
-/

namespace Onboarding

variable {α : Type} {p : α → Bool} {run rest : List α}

/-- A scan takes the whole run, and no more if it stops behind it. -/
theorem takeWhile_append_stop (hrun : ∀ c ∈ run, p c = true)
    (hstop : ∀ c ∈ rest.head?, p c = false) : (run ++ rest).takeWhile p = run := by
  rw [List.takeWhile_append_of_pos hrun]
  cases rest with
  | nil => exact List.append_nil run
  | cons c r =>
    have hc : p c = false := hstop c rfl
    rw [List.takeWhile_cons_of_neg (by simp [hc]), List.append_nil]

/-- A scan leaves what stands behind the run. -/
theorem dropWhile_append_stop (hrun : ∀ c ∈ run, p c = true)
    (hstop : ∀ c ∈ rest.head?, p c = false) : (run ++ rest).dropWhile p = rest := by
  rw [List.dropWhile_append_of_pos hrun]
  cases rest with
  | nil => rfl
  | cons c r =>
    have hc : p c = false := hstop c rfl
    exact List.dropWhile_cons_of_neg (by simp [hc])

end Onboarding
