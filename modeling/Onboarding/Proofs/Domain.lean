import Mathlib.Data.List.Basic
import Onboarding.Domain
import Onboarding.Proofs.Email
import Onboarding.Proofs.Text.Case
import Onboarding.Proofs.Text.Split
/-!
# Domains — what the denylist is asked for

An email that was normalized has no blanks, and its domain is cut at the dots behind it.
So a store is asked for plain domains only, which it has nothing left to trim of, and so
are the parents of a plain domain (`IsPlainDomain.parent`). What is put on a denylist is
trimmed first; `denialKey` is what becomes of it.
-/

namespace Onboarding

/-! ## Trimming -/

theorem dropEndWhile_eq_self {α : Type} {p : α → Bool} {xs : List α}
    (h : ∀ x, xs.getLast? = some x → p x = false) : dropEndWhile p xs = xs := by
  unfold dropEndWhile
  cases hx : xs.reverse with
  | nil =>
    rw [List.dropWhile_nil, List.reverse_nil]
    exact (List.reverse_eq_nil_iff.1 hx).symm
  | cons x r =>
    have hlast : xs.getLast? = some x := by rw [← List.head?_reverse, hx, List.head?_cons]
    rw [List.dropWhile_cons_of_neg (by simp [h x hlast]), ← hx, List.reverse_reverse]

theorem dropEndWhile_sublist {α : Type} (p : α → Bool) (xs : List α) :
    (dropEndWhile p xs).Sublist xs := by
  unfold dropEndWhile
  have h := (List.dropWhile_sublist p (l := xs.reverse)).reverse
  rwa [List.reverse_reverse] at h

/-- What is left does not end in what was dropped. -/
theorem getLast?_dropEndWhile {α : Type} {p : α → Bool} {xs : List α} {x : α}
    (h : (dropEndWhile p xs).getLast? = some x) : p x = false := by
  unfold dropEndWhile at h
  rw [List.getLast?_reverse] at h
  have hhead := List.head?_dropWhile_not p xs.reverse
  rw [h] at hhead
  exact hhead

theorem trimChars_eq_self {cs : List Char} (h : ∀ c ∈ cs, isBlank c = false) :
    trimChars cs = cs := by
  have hfront : cs.dropWhile isBlank = cs := by
    cases cs with
    | nil => rfl
    | cons c r => exact List.dropWhile_cons_of_neg (by simp [h c])
  unfold trimChars
  rw [hfront]
  exact dropEndWhile_eq_self fun c hc => h c (List.mem_of_getLast? hc)

theorem trimDomain_sublist (cs : List Char) : (trimDomain cs).Sublist cs := by
  unfold trimDomain trimChars
  exact ((dropEndWhile_sublist _ _).trans (dropEndWhile_sublist _ _)).trans
    (List.dropWhile_sublist _)

/-! ## Small letters -/

/-- Only capital letters change, and none of them to a blank or a dot. -/
theorem toLower_cases (c : Char) : c.toLower = c ∨
    (65 ≤ c.toNat ∧ c.toNat ≤ 90 ∧ c.toLower.toNat = c.toNat + 32) := by
  have hnat := toNat_toLower c
  split at hnat
  · rename_i hcapital
    exact .inr ⟨hcapital.1, hcapital.2, hnat⟩
  · exact .inl (Char.toNat_inj.1 hnat)

theorem toLower_toLower (c : Char) : c.toLower.toLower = c.toLower :=
  toLower_of_not_isUpper (isUpper_toLower c)

theorem isBlank_toLower {c : Char} (h : isBlank c = false) : isBlank c.toLower = false := by
  rcases toLower_cases c with hc | ⟨hmin, hmax, hc⟩
  · rw [hc]
    exact h
  · unfold isBlank inRanges blankRanges
    rw [hc]
    simp only [List.any_cons, List.any_nil, Bool.or_false, Bool.or_eq_false_iff,
      Bool.and_eq_false_iff, decide_eq_false_iff_not]
    omega

theorem toLower_eq_dot {c : Char} (h : c.toLower = '.') : c = '.' := by
  rcases toLower_cases c with hc | ⟨hmin, hmax, hc⟩
  · rw [← hc, h]
  · rw [h] at hc
    have hdot : '.'.toNat = 46 := rfl
    omega

theorem length_encodeChar_toLower (c : Char) :
    (Utf8.encodeChar c.toLower).length = (Utf8.encodeChar c).length := by
  rcases toLower_cases c with hc | ⟨hmin, hmax, hc⟩
  · rw [hc]
  · rw [Utf8.length_encodeChar_of_le (by omega), Utf8.length_encodeChar_of_le (by omega)]

/-- Small letters take as many bytes as capital ones. -/
theorem byteLength_asciiLower (s : String) : byteLength (asciiLower s) = byteLength s := by
  unfold byteLength Utf8.bytes asciiLower
  rw [String.toList_ofList]
  induction s.toList with
  | nil => rfl
  | cons c cs ih =>
    rw [List.map_cons, List.flatMap_cons, List.flatMap_cons, List.length_append,
      List.length_append, length_encodeChar_toLower, ih]

/-! ## Plain domains -/

/-- A domain that nothing is trimmed of. -/
structure IsPlainDomain (cs : List Char) : Prop where
  ne_nil : cs ≠ []
  unblanked : ∀ c ∈ cs, isBlank c = false
  ended : cs.getLast? ≠ some '.'

namespace IsPlainDomain

variable {cs above : List Char}

theorem trimDomain_eq (h : IsPlainDomain cs) : trimDomain cs = cs := by
  unfold trimDomain
  rw [trimChars_eq_self h.unblanked]
  refine dropEndWhile_eq_self fun c hc => decide_eq_false ?_
  rintro rfl
  exact h.ended hc

/-- The end of a domain is plain if it is not empty. -/
theorem of_suffix (h : IsPlainDomain cs) (hsuffix : above <:+ cs) (hne : above ≠ []) :
    IsPlainDomain above where
  ne_nil := hne
  unblanked c hc := h.unblanked c (hsuffix.subset hc)
  ended := by
    obtain ⟨front, rfl⟩ := hsuffix
    have hended := h.ended
    rwa [List.getLast?_append_of_ne_nil _ hne] at hended

/-- The parents that are asked for are plain. -/
theorem parent (h : IsPlainDomain cs) (hparent : parentDomain? cs = some above)
    (hdot : '.' ∈ above) : IsPlainDomain above := by
  refine h.of_suffix ?_ (List.ne_nil_of_mem hdot)
  unfold parentDomain? splitFirst? at hparent
  split at hparent
  · cases hparent
    exact (List.tail_suffix _).trans (List.dropWhile_suffix _)
  · cases hparent

end IsPlainDomain

/-- The domain of an email without blanks is plain. -/
theorem isPlainDomain_of_emailDomain? {email domain : String}
    (hemail : ∀ c ∈ email.toList, isBlank c = false) (h : emailDomain? email = some domain) :
    IsPlainDomain domain.toList := by
  unfold emailDomain? at h
  split at h
  · cases h
  rename_i user host hsplit
  have hhost : ∀ c ∈ host, isBlank c = false := by
    intro c hc
    have hcut := (splitLast?_eq_some_iff.1 hsplit).1
    exact hemail c (hcut ▸ List.mem_append_right _ (List.mem_cons_of_mem _ hc))
  split at h
  · cases h
  rename_i hne
  obtain rfl := Option.some.inj h
  unfold asciiLower
  rw [String.toList_ofList, String.toList_ofList]
  refine ⟨by simpa using hne, fun c hc => ?_, fun hlast => ?_⟩
  · obtain ⟨d, hd, rfl⟩ := List.mem_map.1 hc
    exact isBlank_toLower (hhost d ((trimDomain_sublist host).subset hd))
  · -- only a dot becomes a dot, and the dots at the end were cut
    rw [List.getLast?_map, Option.map_eq_some_iff] at hlast
    obtain ⟨d, hd, hdot⟩ := hlast
    have hcut := getLast?_dropEndWhile (p := (· = '.')) hd
    exact of_decide_eq_false hcut (toLower_eq_dot hdot)

/-! ## Looking up -/

namespace Store

variable {σ τ : Type} [Store σ] [Store τ]

/-- A domain is refused for itself or for its parent. -/
theorem hasFraudDomain_eq (s : σ) (cs : List Char) :
    hasFraudDomain s cs = match isFraudDomain s (String.ofList cs) with
      | .error e => .error e
      | .ok true => .ok true
      | .ok false =>
        match parentDomain? cs with
        | none => .ok false
        | some above => if '.' ∈ above then hasFraudDomain s above else .ok false := by
  rw [hasFraudDomain]
  rcases isFraudDomain s (String.ofList cs) with _ | _ | _
  · rfl
  · dsimp only
    split
    · rename_i hnone
      rw [hnone]
    · rename_i above hsome
      rw [hsome]
  · rfl

variable {s : σ} {t : τ}

/-- Stores that answer alike for plain domains refuse the same domains. -/
theorem hasFraudDomain_congr (h : ∀ cs, IsPlainDomain cs →
      isFraudDomain s (String.ofList cs) = isFraudDomain t (String.ofList cs))
    {cs : List Char} (hcs : IsPlainDomain cs) : hasFraudDomain s cs = hasFraudDomain t cs := by
  induction hn : cs.length using Nat.strongRecOn generalizing cs with
  | ind n ih =>
    rw [hasFraudDomain_eq s cs, hasFraudDomain_eq t cs, h cs hcs]
    rcases isFraudDomain t (String.ofList cs) with _ | _ | _
    · rfl
    · dsimp only
      cases hparent : parentDomain? cs with
      | none => rfl
      | some above =>
        by_cases hdot : '.' ∈ above
        · have hshort := length_parentDomain hparent
          dsimp only
          rw [if_pos hdot, if_pos hdot]
          exact ih _ (hn ▸ hshort) (hcs.parent hparent hdot) rfl
        · dsimp only
          rw [if_neg hdot, if_neg hdot]
    · rfl

/-- They refuse the same emails, of those without blanks. -/
theorem isFraudEmail_congr (h : ∀ cs, IsPlainDomain cs →
      isFraudDomain s (String.ofList cs) = isFraudDomain t (String.ofList cs))
    {email : String} (hemail : ∀ c ∈ email.toList, isBlank c = false) :
    isFraudEmail s email = isFraudEmail t email := by
  unfold isFraudEmail
  cases hdomain : emailDomain? email with
  | none => rfl
  | some domain => exact hasFraudDomain_congr h (isPlainDomain_of_emailDomain? hemail hdomain)

end Store

end Onboarding
