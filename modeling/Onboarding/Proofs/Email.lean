import Mathlib.Data.List.TakeWhile
import Onboarding.Email
import Onboarding.Proofs.Text.Utf8
/-!
# Emails — how long an email is once it is normalized

Trimming takes characters away and the small letters of a character are two at most. So
the one spelling of an email is at most twice as long as what a client wrote, and its
bytes are at most four for each character.
-/

namespace Onboarding

/-! ## Bytes of a character -/

theorem Utf8.length_encodeChar_le (c : Char) :
    1 ≤ (Utf8.encodeChar c).length ∧ (Utf8.encodeChar c).length ≤ 4 := by
  unfold Utf8.encodeChar
  rw [String.length_utf8EncodeChar]
  exact ⟨c.utf8Size_pos, c.utf8Size_le_four⟩

/-- A text has no more characters than bytes, and no more bytes than four for each. -/
theorem length_le_byteLength (s : String) :
    s.toList.length ≤ byteLength s ∧ byteLength s ≤ 4 * s.toList.length := by
  unfold byteLength Utf8.bytes
  induction s.toList with
  | nil => exact ⟨Nat.le_refl _, Nat.le_refl _⟩
  | cons c cs ih =>
    have hc := Utf8.length_encodeChar_le c
    simp only [List.flatMap_cons, List.length_append, List.length_cons]
    omega

/-! ## Trimming and small letters -/

theorem length_trim_le (s : String) : (trim s).toList.length ≤ s.toList.length := by
  unfold trim trimChars dropEndWhile
  rw [String.toList_ofList, List.length_reverse]
  refine (List.length_dropWhile_le _ _).trans ?_
  rw [List.length_reverse]
  exact List.length_dropWhile_le _ _

namespace Lowercase

theorem length_lowerAt_le (before : List Char) (c : Char) (after : List Char) :
    (lowerAt before c after).length ≤ 2 := by
  unfold lowerAt
  split
  · split <;> decide
  · split
    · decide
    · exact Nat.le_succ 1

theorem length_lowerFrom_le (before cs : List Char) :
    (lowerFrom before cs).length ≤ 2 * cs.length := by
  induction cs generalizing before with
  | nil => exact Nat.le_refl _
  | cons c cs ih =>
    have hc := length_lowerAt_le before c cs
    have hcs := ih (c :: before)
    rw [lowerFrom, List.length_append, List.length_cons]
    omega

end Lowercase

theorem length_lowercase_le (s : String) :
    (lowercase s).toList.length ≤ 2 * s.toList.length := by
  unfold lowercase
  rw [String.toList_ofList]
  exact Lowercase.length_lowerFrom_le [] s.toList

namespace Email

variable {raw email : String}

theorem eq_of_normalize? (h : normalize? raw = some email) :
    email = lowercase (trim raw) ∧ isPlausible email.toList = true := by
  unfold normalize? at h
  dsimp only at h
  generalize lowercase (trim raw) = spelling at h ⊢
  split at h <;> cases h
  exact ⟨rfl, ‹_›⟩

/-- **A normalized email is at most twice as long** as what was written. -/
theorem length_of_normalize? (h : normalize? raw = some email) :
    email.toList.length ≤ 2 * raw.toList.length := by
  have hlower := length_lowercase_le (trim raw)
  have htrim := length_trim_le raw
  rw [(eq_of_normalize? h).1]
  omega

/-- A normalized email is not empty. -/
theorem ne_empty_of_normalize? (h : normalize? raw = some email) : email ≠ "" := by
  intro hempty
  have hplausible := (eq_of_normalize? h).2
  rw [hempty] at hplausible
  cases hplausible

/-- A normalized email has no blanks. -/
theorem isBlank_of_normalize? (h : normalize? raw = some email) :
    ∀ c ∈ email.toList, isBlank c = false := by
  intro c hc
  have hplausible := (eq_of_normalize? h).2
  unfold isPlausible at hplausible
  split at hplausible
  · cases hplausible
  · simp only [Bool.and_eq_true, Bool.not_eq_true', List.any_eq_false] at hplausible
    simpa using hplausible.2 c hc

end Email

end Onboarding
