import Onboarding.Email
import Onboarding.Proofs.Text.Lowercase
/-!
# Hosts — one domain, spelled four times

What follows the `@` of an email is spelled by the client, by whoever normalizes the email,
by whoever asks the denylist, and by whoever puts an entry on it. The `host` is the part that
all of them cut to: behind the last `@`, without the blanks around it and the dots behind it.
A normalized email asks for the small letters of its host (`emailDomain?_of_normalize?`); an
entry is listed with only the letters of ASCII made small (`emailDomain?_at_host`).
-/

namespace Onboarding

/-! ## Cutting -/

theorem dropWhile_isBlank_append_at (front back : List Char) :
    (front ++ '@' :: back).dropWhile isBlank = front.dropWhile isBlank ++ '@' :: back := by
  induction front with
  | nil => exact List.dropWhile_cons_of_neg (by decide)
  | cons c front ih =>
    rw [List.cons_append, List.dropWhile_cons, List.dropWhile_cons]
    split
    · exact ih
    · rfl

/-- Trimming does not go past an `@`. -/
theorem trimChars_append_at (front back : List Char) :
    trimChars (front ++ '@' :: back) =
      front.dropWhile isBlank ++ '@' :: dropEndWhile isBlank back := by
  unfold trimChars dropEndWhile
  rw [dropWhile_isBlank_append_at, List.reverse_append, List.reverse_cons, List.append_assoc,
    List.singleton_append, dropWhile_isBlank_append_at]
  simp

theorem dropEndWhile_prefix {α : Type} (p : α → Bool) (xs : List α) : dropEndWhile p xs <+: xs := by
  have h := List.dropWhile_suffix p (l := xs.reverse)
  rw [← List.reverse_prefix, List.reverse_reverse] at h
  exact h

/-- Where no blanks are left, there were none in front. -/
theorem trimChars_eq_dropEndWhile {cs : List Char} (hne : dropEndWhile isBlank cs ≠ [])
    (hblank : ∀ c ∈ dropEndWhile isBlank cs, isBlank c = false) :
    trimChars cs = dropEndWhile isBlank cs := by
  have hfront : cs.dropWhile isBlank = cs := by
    have hprefix := dropEndWhile_prefix isBlank cs
    cases hcut : dropEndWhile isBlank cs with
    | nil => exact absurd hcut hne
    | cons c front =>
      rw [hcut] at hprefix hblank
      obtain ⟨rest, rfl⟩ := hprefix
      exact List.dropWhile_cons_of_neg (by simp [hblank c])
  rw [trimChars, hfront]

/-- The dots that are cut off. -/
theorem exists_dots (cs : List Char) :
    ∃ n, cs = dropEndWhile (· = '.') cs ++ List.replicate n '.' := by
  refine ⟨(cs.reverse.takeWhile (· = '.')).length, ?_⟩
  have hdots : (cs.reverse.takeWhile (· = '.')).reverse =
      List.replicate (cs.reverse.takeWhile (· = '.')).length '.' := by
    refine List.eq_replicate_iff.2 ⟨List.length_reverse, fun c hc => ?_⟩
    exact of_decide_eq_true (List.mem_takeWhile_imp (p := (· = '.')) (List.mem_reverse.1 hc))
  rw [← hdots, dropEndWhile, ← List.reverse_append, List.takeWhile_append_dropWhile,
    List.reverse_reverse]

theorem dropEndWhile_append_dots {cs : List Char} (h : cs.getLast? ≠ some '.') (n : Nat) :
    dropEndWhile (· = '.') (cs ++ List.replicate n '.') = cs := by
  induction n with
  | zero =>
    rw [List.replicate_zero, List.append_nil]
    refine dropEndWhile_eq_self fun c hc => decide_eq_false ?_
    rintro rfl
    exact h hc
  | succ n ih =>
    rw [List.replicate_succ', ← List.append_assoc]
    unfold dropEndWhile at ih ⊢
    rw [List.reverse_append, List.reverse_singleton, List.singleton_append,
      List.dropWhile_cons_of_pos (by simp)]
    exact ih

theorem mem_dropWhile_of_not {α : Type} {p : α → Bool} {x : α} {xs : List α} (hx : x ∈ xs)
    (hp : p x = false) : x ∈ xs.dropWhile p := by
  rw [← List.takeWhile_append_dropWhile (p := p) (l := xs), List.mem_append] at hx
  refine hx.resolve_left fun hcut => ?_
  rw [List.mem_takeWhile_imp hcut] at hp
  cases hp

theorem mem_dropEndWhile_of_not {α : Type} {p : α → Bool} {x : α} {xs : List α} (hx : x ∈ xs)
    (hp : p x = false) : x ∈ dropEndWhile p xs :=
  List.mem_reverse.2 (mem_dropWhile_of_not (List.mem_reverse.2 hx) hp)

/-- Nothing but blanks and dots is cut off. -/
theorem mem_trimDomain {c : Char} {cs : List Char} (hc : c ∈ cs) (hblank : isBlank c = false)
    (hdot : c ≠ '.') : c ∈ trimDomain cs :=
  mem_dropEndWhile_of_not
    (mem_dropEndWhile_of_not (mem_dropWhile_of_not hc hblank) hblank) (decide_eq_false hdot)

/-! ## Hosts -/

/-- What a text behind an `@` is cut to. -/
def host (domain : String) : List Char :=
  match splitLast? '@' ('@' :: domain.toList) with
  | some (_, back) => trimDomain back
  | none => []

theorem host_eq_of_split {domain : String} {front back : List Char}
    (h : '@' :: domain.toList = front ++ '@' :: back) (hback : '@' ∉ back) :
    host domain = trimDomain back := by
  unfold host
  rw [splitLast?_eq_some_iff.2 ⟨h, hback⟩]

/-- A text without an `@` is cut as it stands. -/
theorem host_of_not_mem {domain : String} (h : '@' ∉ domain.toList) :
    host domain = trimDomain domain.toList :=
  host_eq_of_split (show _ = [] ++ '@' :: domain.toList from rfl) h

/-- Behind the last `@` there is none. -/
theorem exists_back (domain : String) :
    ∃ front back, '@' :: domain.toList = front ++ '@' :: back ∧ '@' ∉ back := by
  cases h : splitLast? '@' ('@' :: domain.toList) with
  | none =>
    unfold splitLast? at h
    rw [if_pos List.mem_cons_self] at h
    cases h
  | some p => exact ⟨p.1, p.2, splitLast?_eq_some_iff.1 h⟩

theorem at_not_mem_host (domain : String) : '@' ∉ host domain := by
  obtain ⟨front, back, hsplit, hback⟩ := exists_back domain
  rw [host_eq_of_split hsplit hback]
  exact fun hmem => hback ((trimDomain_sublist back).subset hmem)

/-- **An entry is listed under its host** with the letters of ASCII made small. -/
theorem emailDomain?_at_host (domain : String) :
    emailDomain? ("@" ++ domain) =
      if host domain = [] then none else some (asciiLower (String.ofList (host domain))) := by
  obtain ⟨front, back, hsplit, hback⟩ := exists_back domain
  have htext : ("@" ++ domain).toList = '@' :: domain.toList := by
    rw [String.toList_append]
    rfl
  rw [host_eq_of_split hsplit hback]
  unfold emailDomain?
  rw [htext, splitLast?_eq_some_iff.2 ⟨hsplit, hback⟩]
  dsimp only
  split
  · rename_i hcut
    rw [if_pos hcut]
  · rename_i hcut
    rw [if_neg hcut]

namespace Email

variable {user domain email : String}

/-- What a normalized email is: something, an `@`, and the small letters of its host with
the dots behind it. -/
theorem exists_lower_host (h : normalize? (user ++ "@" ++ domain) = some email) :
    ∃ front n, email.toList =
        front ++ '@' :: Lowercase.lowerFrom [] (host domain ++ List.replicate n '.') ∧
      (host domain).getLast? ≠ some '.' := by
  obtain ⟨pre, back, hsplit, hback⟩ := exists_back domain
  have hraw : (user ++ "@" ++ domain).toList = (user.toList ++ pre) ++ '@' :: back := by
    rw [String.toList_append, String.toList_append, List.append_assoc, List.append_assoc, ← hsplit]
    rfl
  obtain ⟨hemail, hplausible⟩ := eq_of_normalize? h
  obtain ⟨front, hfront⟩ := Lowercase.lowerFrom_behind_at []
    ((user.toList ++ pre).dropWhile isBlank) (dropEndWhile isBlank back)
  have htext : email.toList =
      front ++ '@' :: Lowercase.lowerFrom [] (dropEndWhile isBlank back) := by
    rw [hemail, lowercase, String.toList_ofList, trim, String.toList_ofList, hraw,
      trimChars_append_at, hfront]
  have hprefix := dropEndWhile_prefix isBlank back
  -- an email has something behind its `@` and no blanks, so there is none before the host
  have hblank : ∀ c ∈ dropEndWhile isBlank back, isBlank c = false := by
    intro c hc
    by_contra hne
    have hmem : c ∈ Lowercase.lowerFrom [] (dropEndWhile isBlank back) :=
      Lowercase.mem_lowerFrom_of_isBlank hc (Bool.of_not_eq_false hne)
    refine hne (isBlank_of_normalize? h c ?_)
    rw [htext]
    exact List.mem_append_right _ (List.mem_cons_of_mem _ hmem)
  have hne : dropEndWhile isBlank back ≠ [] := by
    intro hnil
    rw [hnil] at htext
    have hlast : splitLast? '@' email.toList = some (front, []) :=
      splitLast?_eq_some_iff.2 ⟨htext, List.not_mem_nil⟩
    rw [isPlausible, hlast] at hplausible
    simp at hplausible
  have hhost : host domain = dropEndWhile (· = '.') (dropEndWhile isBlank back) := by
    rw [host_eq_of_split hsplit hback, trimDomain, trimChars_eq_dropEndWhile hne hblank]
  obtain ⟨n, hn⟩ := exists_dots (dropEndWhile isBlank back)
  rw [← hhost] at hn
  refine ⟨front, n, hn ▸ htext, fun hlast => ?_⟩
  rw [hhost] at hlast
  exact of_decide_eq_false (getLast?_dropEndWhile (p := (· = '.')) hlast) rfl

/-- **A normalized email asks for the small letters of its host.** -/
theorem emailDomain?_of_normalize? (h : normalize? (user ++ "@" ++ domain) = some email) :
    emailDomain? email =
      if host domain = [] then none else some (lowercase (String.ofList (host domain))) := by
  obtain ⟨front, n, htext, hended⟩ := exists_lower_host h
  have hblank := isBlank_of_normalize? h
  rw [Lowercase.lowerFrom_append_dots] at htext
  have hback : '@' ∉ Lowercase.lowerFrom [] (host domain) ++ List.replicate n '.' := by
    intro hmem
    rcases List.mem_append.1 hmem with hmem | hmem
    · exact at_not_mem_host domain (Lowercase.mem_of_mem_lowerFrom hmem (by decide)).1
    · cases (List.mem_replicate.1 hmem).2
  have hcut : trimDomain (Lowercase.lowerFrom [] (host domain) ++ List.replicate n '.') =
      Lowercase.lowerFrom [] (host domain) := by
    rw [trimDomain, trimChars_eq_self fun c hc => hblank c ?_]
    · exact dropEndWhile_append_dots (Lowercase.getLast?_lowerFrom_ne Lowercase.isMark_dot hended) n
    · rw [htext]
      exact List.mem_append_right _ (List.mem_cons_of_mem _ hc)
  unfold emailDomain?
  rw [splitLast?_eq_some_iff.2 ⟨htext, hback⟩]
  dsimp only
  rw [hcut]
  split
  · rename_i hnil
    rw [if_pos (Lowercase.lowerFrom_eq_nil.1 hnil)]
  · rename_i hne
    rw [if_neg (mt Lowercase.lowerFrom_eq_nil.2 hne), asciiLower, String.toList_ofList,
      Lowercase.map_toLower_lowerFrom, lowercase, String.toList_ofList]

end Email

end Onboarding
