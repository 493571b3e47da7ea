import Mathlib.Data.List.TakeWhile
import Onboarding.Json.Draft
/-!
# Drafts — no text is longer than what it was read from

An escape is longer than what it stands for, and so a text in a JSON document has at
most as many characters as the document. `Within` says so of every text in a draft, and
`within_ofText` proves it for what was read.
-/

namespace Onboarding

namespace Draft

mutual

/-- No text in the draft has more than `n` characters. -/
def Within (n : Nat) : Draft → Prop
  | .text (some s) => s.toList.length ≤ n
  | .array items _ => AllWithin n items
  | .object members _ => MembersWithin n members
  | _ => True

/-- No text in the items has more than `n` characters. -/
def AllWithin (n : Nat) : List Draft → Prop
  | [] => True
  | d :: r => Within n d ∧ AllWithin n r

/-- No text in the values of the members has more than `n` characters. -/
def MembersWithin (n : Nat) : List (String × Draft) → Prop
  | [] => True
  | (_, d) :: r => Within n d ∧ MembersWithin n r

end

/-- What a reader gives is within `n`, and so is what it leaves. -/
structure Bounded (n : Nat) (out : Draft × Option (List Char)) : Prop where
  within : out.1.Within n
  rest : ∀ r, out.2 = some r → r.length ≤ n

/-! ## Texts -/

section Texts

variable {n : Nat} {cs r : List Char}

theorem length_skipSpace_le (cs : List Char) : (skipSpace cs).length ≤ cs.length :=
  List.length_dropWhile_le isSpace cs

theorem length_of_hex4 {k : Nat} (h : hex4 cs = some (k, r)) : r.length ≤ cs.length := by
  unfold hex4 at h
  split at h
  · simp only [bind, Option.bind_eq_some_iff, pure, Option.some.injEq, Prod.mk.injEq] at h
    obtain ⟨_, -, _, -, _, -, _, -, -, rfl⟩ := h
    simp only [List.length_cons]
    omega
  · cases h

/-- Every unit takes a character at least. -/
theorem length_of_units {fuel : Nat} {us : List (Char ⊕ Nat)} (h : units fuel cs = some (us, r)) :
    us.length ≤ cs.length ∧ r.length ≤ cs.length := by
  fun_induction units fuel cs generalizing us r with
  | case1 | case2 | case6 | case7 => cases h
  | case3 =>
    cases h
    simp
  | case4 fuel cs _ ih =>
    simp only [bind, Option.bind_eq_some_iff, pure, Option.some.injEq, Prod.mk.injEq] at h
    obtain ⟨⟨k, r₁⟩, hhex, ⟨us₁, r₂⟩, hunits, rfl, rfl⟩ := h
    have hlen := length_of_hex4 hhex
    have hrest : us₁.length ≤ r₁.length ∧ r₂.length ≤ r₁.length := ih _ hunits
    simp only [List.length_cons]
    omega
  | case5 fuel e cs _ _ ih =>
    simp only [bind, Option.bind_eq_some_iff, pure, Option.some.injEq, Prod.mk.injEq] at h
    obtain ⟨_, -, ⟨us₁, r₂⟩, hunits, rfl, rfl⟩ := h
    have hrest := ih hunits
    simp only [List.length_cons]
    omega
  | case8 fuel c cs _ _ _ ih =>
    simp only [bind, Option.bind_eq_some_iff, pure, Option.some.injEq, Prod.mk.injEq] at h
    obtain ⟨⟨us₁, r₂⟩, hunits, rfl, rfl⟩ := h
    have hrest := ih hunits
    simp only [List.length_cons]
    omega

/-- A pair of units makes one character. -/
theorem length_of_joinUnits {us : List (Char ⊕ Nat)} (h : joinUnits us = some cs) :
    cs.length ≤ us.length := by
  fun_induction joinUnits us generalizing cs with
  | case1 =>
    cases h
    simp
  | case2 c us ih | case3 n us _ ih =>
    obtain ⟨cs', hcs', rfl⟩ := Option.map_eq_some_iff.1 h
    have hrest := ih hcs'
    simp only [List.length_cons]
    omega
  | case4 n _ _ m us _ ih =>
    obtain ⟨cs', hcs', rfl⟩ := Option.map_eq_some_iff.1 h
    have hrest := ih hcs'
    simp only [List.length_cons]
    omega
  | case5 | case6 | case7 => cases h

theorem bounded_readText (h : cs.length ≤ n) : Bounded n (readText cs) := by
  unfold readText
  split
  · exact ⟨trivial, nofun⟩
  · rename_i us r hunits
    have hlen := length_of_units hunits
    refine ⟨?_, ?_⟩
    · cases hjoin : joinUnits us with
      | none => exact trivial
      | some cs' =>
        have hjoined := length_of_joinUnits hjoin
        show (String.ofList cs').toList.length ≤ n
        rw [String.toList_ofList]
        omega
    · rintro _ ⟨⟩
      omega

end Texts

/-! ## Numbers and words -/

section Numbers

variable {n : Nat} {cs r : List Char}

theorem length_dropDigits_le (cs : List Char) : (cs.dropWhile Char.isDigit).length ≤ cs.length :=
  List.length_dropWhile_le Char.isDigit cs

theorem length_of_exponentPart {p : Int × List Char} (h : p ∈ exponentPart cs) :
    p.2.length ≤ cs.length := by
  revert h
  fun_cases exponentPart cs with
  | case1 => exact nofun
  | case2 negative r hsign ds _ k =>
    have hr : r.length ≤ cs.length := by
      split at hsign <;> cases hsign <;> simp
    rintro ⟨⟩
    have hdrop := length_dropDigits_le r
    show (r.dropWhile Char.isDigit).length ≤ cs.length
    omega

theorem bounded_readNumber (h : cs.length ≤ n) : Bounded n (readNumber cs) := by
  fun_cases readNumber cs with
  | case1 | case2 | case3 => exact ⟨trivial, nofun⟩
  | case4 negative cs₁ hsign whole rest _ fraction cs₂ hfraction _ digits point exponent e cs₃
      hexponent plain value =>
    -- sign, digits, fraction and exponent each leave no more than they found
    have h₁ : cs₁.length ≤ cs.length := by
      split at hsign <;> cases hsign <;> simp
    have hrest : rest.length ≤ cs₁.length := length_dropDigits_le cs₁
    clear_value rest
    have h₂ : cs₂.length ≤ rest.length := by
      split at hfraction
      · rename_i r
        cases hfraction
        exact Nat.le_succ_of_le (length_dropDigits_le r)
      · cases hfraction
        exact Nat.le_refl _
    have h₃ : cs₃.length ≤ cs₂.length := by
      have hmarked : ∀ r : List Char, (exponentPart r).map (fun p => (some p.1, p.2)) =
          some (e, cs₃) → cs₃.length ≤ r.length := by
        intro r hr
        obtain ⟨p, hp, hpair⟩ := Option.map_eq_some_iff.1 hr
        cases hpair
        exact length_of_exponentPart hp
      simp only [exponent] at hexponent
      split at hexponent
      · exact Nat.le_succ_of_le (hmarked _ hexponent)
      · exact Nat.le_succ_of_le (hmarked _ hexponent)
      · cases hexponent
        exact Nat.le_refl _
    refine ⟨?_, ?_⟩
    · show value.Within n
      simp only [value]
      split
      · exact trivial
      · split <;> exact trivial
    · rintro _ ⟨⟩
      omega

theorem bounded_readWord {word : String} {value : Draft} (hvalue : value.Within n)
    (h : cs.length ≤ n) : Bounded n (readWord word value cs) := by
  unfold readWord
  split
  · refine ⟨hvalue, ?_⟩
    rintro _ ⟨⟩
    rw [List.length_drop]
    omega
  · exact ⟨trivial, nofun⟩

end Numbers

/-! ## Values -/

/-- What follows the first character behind the blanks. -/
theorem length_le_of_skipSpace {n : Nat} {cs r : List Char} {c : Char} (h : cs.length ≤ n)
    (hskip : skipSpace cs = c :: r) : r.length < n := by
  have hle := length_skipSpace_le cs
  rw [hskip, List.length_cons] at hle
  omega

/-- The three readers stay within what they read, with so much fuel. -/
structure ReadersBounded (n fuel : Nat) : Prop where
  value : ∀ cs : List Char, cs.length ≤ n → Bounded n (readValue fuel cs)
  items : ∀ (first : Bool) (cs : List Char), cs.length ≤ n → Bounded n (readItems fuel first cs)
  members : ∀ (first : Bool) (cs : List Char), cs.length ≤ n → Bounded n (readMembers fuel first cs)

namespace ReadersBounded

variable {n fuel : Nat} {cs : List Char}

/-- Where a list goes on after its first character, that one is a part of it. -/
theorem length_front (h : cs.length ≤ n) (first : Bool) {c : Char} {r : List Char}
    (hskip : skipSpace cs = c :: r) : (if first = true then c :: r else r).length ≤ n := by
  have hlt := length_le_of_skipSpace h hskip
  cases first
  · exact hlt.le
  · exact hlt

theorem readValue_succ (ih : ReadersBounded n fuel) (h : cs.length ≤ n) :
    Bounded n (readValue (fuel + 1) cs) := by
  generalize hfuel : fuel + 1 = k
  fun_cases readValue k cs with
  | case1 | case2 | case10 => exact ⟨trivial, nofun⟩
  | case3 =>
    rename_i hskip
    exact bounded_readText (length_le_of_skipSpace h hskip).le
  | case4 =>
    rename_i r hskip
    cases hfuel
    exact ih.items true r (length_le_of_skipSpace h hskip).le
  | case5 =>
    rename_i r hskip
    cases hfuel
    exact ih.members true r (length_le_of_skipSpace h hskip).le
  | case6 | case7 | case8 =>
    rename_i hskip
    exact bounded_readWord trivial (length_le_of_skipSpace h hskip).le
  | case9 =>
    rename_i hskip
    exact bounded_readNumber (length_le_of_skipSpace h hskip)

theorem readItems_succ (ih : ReadersBounded n fuel) (first : Bool) (h : cs.length ≤ n) :
    Bounded n (readItems (fuel + 1) first cs) := by
  generalize hfuel : fuel + 1 = k
  fun_cases readItems k first cs with
  | case1 | case2 | case4 => exact ⟨trivial, nofun⟩
  | case3 =>
    -- the bracket that closes the array
    rename_i hskip
    refine ⟨trivial, ?_⟩
    rintro _ ⟨⟩
    exact (length_le_of_skipSpace h hskip).le
  | case5 =>
    -- an item that is cut off
    rename_i hitem hskip
    cases hfuel
    have hvalue := ih.value _ (length_front h first hskip)
    rw [hitem] at hvalue
    exact ⟨⟨hvalue.within, trivial⟩, nofun⟩
  | case6 =>
    -- an item and the items behind it
    rename_i rest _ _ _ hitems _ hitem hskip
    cases hfuel
    have hvalue := ih.value _ (length_front h first hskip)
    rw [hitem] at hvalue
    have hrest := ih.items false rest (hvalue.rest rest rfl)
    rw [hitems] at hrest
    exact ⟨⟨hvalue.within, hrest.within⟩, hrest.rest⟩
  | case7 =>
    rename_i rest _ _ hitem hskip
    cases hfuel
    have hvalue := ih.value _ (length_front h first hskip)
    rw [hitem] at hvalue
    exact ih.items false rest (hvalue.rest rest rfl)

/-- What stands behind the colon of a member. -/
theorem length_behind_colon (h : cs.length ≤ n) (first : Bool) {r r₁ r₂ r₃ : List Char} {c : Char}
    {d : Draft} (hskip : skipSpace cs = c :: r)
    (hquote : skipSpace (if first = true then c :: r else r) = '"' :: r₁)
    (htext : readText r₁ = (d, some r₂)) (hcolon : skipSpace r₂ = ':' :: r₃) : r₃.length ≤ n := by
  have hkey := bounded_readText (length_le_of_skipSpace (length_front h first hskip) hquote).le
  rw [htext] at hkey
  exact (length_le_of_skipSpace (hkey.rest r₂ rfl) hcolon).le

theorem readMembers_succ (ih : ReadersBounded n fuel) (first : Bool) (h : cs.length ≤ n) :
    Bounded n (readMembers (fuel + 1) first cs) := by
  generalize hfuel : fuel + 1 = k
  fun_cases readMembers k first cs with
  | case1 | case2 | case4 | case9 | case10 => exact ⟨trivial, nofun⟩
  | case3 =>
    -- the brace that closes the object
    rename_i hskip
    refine ⟨trivial, ?_⟩
    rintro _ ⟨⟩
    exact (length_le_of_skipSpace h hskip).le
  | case8 => exact ⟨⟨trivial, trivial⟩, nofun⟩
  | case5 =>
    -- a member whose value is cut off
    rename_i htext r hmark _ hitem _ hquote hskip
    cases hfuel
    have hvalue := ih.value r (length_behind_colon h first hskip hquote htext hmark)
    rw [hitem] at hvalue
    exact ⟨⟨hvalue.within, trivial⟩, nofun⟩
  | case6 =>
    -- a member and the members behind it
    rename_i htext r hmark _ rest _ _ _ hmembers hitem _ hquote hskip
    cases hfuel
    have hvalue := ih.value r (length_behind_colon h first hskip hquote htext hmark)
    rw [hitem] at hvalue
    have hrest := ih.members false rest (hvalue.rest rest rfl)
    rw [hmembers] at hrest
    exact ⟨⟨hvalue.within, hrest.within⟩, hrest.rest⟩
  | case7 =>
    rename_i htext r hmark _ rest hitem _ _ hquote hskip
    cases hfuel
    have hvalue := ih.value r (length_behind_colon h first hskip hquote htext hmark)
    rw [hitem] at hvalue
    exact ih.members false rest (hvalue.rest rest rfl)

end ReadersBounded

/-- **Every reader stays within the length of what it reads**, by induction on the fuel that
the three share. -/
theorem readersBounded (n fuel : Nat) : ReadersBounded n fuel := by
  induction fuel with
  | zero =>
    -- a reader without fuel gives something malformed at once
    exact ⟨fun _ _ => ⟨trivial, nofun⟩, fun _ _ _ => ⟨trivial, nofun⟩,
      fun _ _ _ => ⟨trivial, nofun⟩⟩
  | succ fuel ih =>
    exact ⟨fun _ => ih.readValue_succ, fun first _ => ih.readItems_succ first,
      fun first _ => ih.readMembers_succ first⟩

/-- **No text in what was read is longer than what it was read from.** -/
theorem within_ofText (s : String) : (ofText s).1.Within s.toList.length :=
  ((readersBounded _ _).value s.toList (Nat.le_refl _)).within

end Draft

end Onboarding
