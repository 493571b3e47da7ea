import Mathlib.Data.List.TakeWhile
import Onboarding.Proofs.Text.Span
import Onboarding.Text.Split
/-!
# Splitting — where a text was cut

The last occurrence of a character is the one behind which there is none, and that tells the
parts before and after it; so does the first, before which there is none. Cut at every
occurrence, a text falls into the parts it was joined from.
-/

namespace Onboarding

theorem splitLast?_append {c : Char} {front back : List Char} (h : c ∉ back) :
    splitLast? c (front ++ c :: back) = some (front, back) := by
  have hback : ((front ++ c :: back).reverse.takeWhile (· ≠ c)).reverse = back := by
    rw [List.reverse_append, List.reverse_cons, List.append_assoc,
      List.takeWhile_append_of_pos fun d hd => ?_]
    · simp
    · exact decide_eq_true fun hdc => h (hdc ▸ List.mem_reverse.1 hd)
  have hfront : (front ++ c :: back).length - back.length - 1 = front.length := by
    rw [List.length_append, List.length_cons]
    omega
  unfold splitLast?
  rw [if_pos (by simp), hback]
  dsimp only
  rw [hfront, List.take_left]

/-- **A text is cut at the one occurrence** behind which there is none. -/
theorem splitLast?_eq_some_iff {c : Char} {cs front back : List Char} :
    splitLast? c cs = some (front, back) ↔ cs = front ++ c :: back ∧ c ∉ back := by
  constructor
  · intro h
    have hmem : c ∈ cs := by
      by_contra hmem
      rw [splitLast?, if_neg hmem] at h
      cases h
    -- the last occurrence is the first one from behind
    obtain ⟨as, bs, hsplit, has⟩ := List.eq_append_cons_of_mem (List.mem_reverse.2 hmem)
    have hcs : cs = bs.reverse ++ c :: as.reverse := by
      rw [← List.reverse_reverse cs, hsplit]
      simp
    have hlast : c ∉ as.reverse := fun hc => has (List.mem_reverse.1 hc)
    rw [hcs, splitLast?_append hlast] at h
    cases h
    exact ⟨hcs, hlast⟩
  · rintro ⟨rfl, hback⟩
    exact splitLast?_append hback

theorem splitFirst?_append {c : Char} {front back : List Char} (h : c ∉ front) :
    splitFirst? c (front ++ c :: back) = some (front, back) := by
  have hfront : ∀ d ∈ front, decide (d ≠ c) = true := fun d hd =>
    decide_eq_true fun hdc => h (hdc ▸ hd)
  have hstop : ∀ d ∈ (c :: back).head?, decide (d ≠ c) = false := by simp
  rw [splitFirst?, if_pos (by simp), takeWhile_append_stop hfront hstop,
    dropWhile_append_stop hfront hstop]
  rfl

theorem splitFirst?_of_not_mem {c : Char} {cs : List Char} (h : c ∉ cs) :
    splitFirst? c cs = none :=
  if_neg h

theorem splitAll_eq_splitOn (sep : Char) (cs : List Char) : splitAll sep cs = cs.splitOn sep := by
  induction cs with
  | nil => rfl
  | cons c r ih =>
    rw [splitAll, ih, List.splitOn_cons_eq_if_modifyHead]
    obtain ⟨p, ps, hps⟩ := List.exists_cons_of_ne_nil (List.splitOn_ne_nil sep r)
    simp only [hps, beq_iff_eq, List.modifyHead_cons]

/-- **Parts that are joined are told apart again** if the character is in none of them. -/
theorem splitAll_intercalate (sep : Char) {parts : List (List Char)} (hparts : parts ≠ [])
    (h : ∀ p ∈ parts, sep ∉ p) : splitAll sep ([sep].intercalate parts) = parts := by
  rw [splitAll_eq_splitOn]
  exact List.splitOn_intercalate sep h hparts

end Onboarding
