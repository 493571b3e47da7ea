import Mathlib.Tactic.Common
import Onboarding.Proofs.Text.Span
import Onboarding.Toml.Text
/-!
# TOML texts — what is written between quotes reads back

A text may hold any character, and is written in one of four forms. `Spells` says which
characters between the quotes stand for a text, with a count of the quotes just passed: in
several lines two quotes may stand side by side, and a third would close the text. What
spells a text is read as that text (`body?_of_spells`), and the writer spells every text
(`spells_escaped`, `spells_of_fits`). Together they give `text?_writeText`.
-/

namespace Onboarding

namespace Toml

variable {f : TextForm} {run : Nat} {w s cs rest : List Char} {c : Char}

namespace TextForm

theorem quote_of_mem (h : f ∈ forms) : f.quote = '"' ∨ f.quote = '\'' := by
  simp only [forms, List.mem_cons, List.not_mem_nil, or_false] at h
  rcases h with rfl | rfl | rfl | rfl <;> simp [basic, literal, basicLines, literalLines]

theorem quote_eq_of_hasEscapes (h : f.hasEscapes = true) : f.quote = '"' :=
  of_decide_eq_true h

end TextForm

/-- A run of quotes ends where another character stands. -/
theorem takeWhile_replicate_append {q : Char} (n : Nat) (h : rest.head? ≠ some q) :
    (List.replicate n q ++ rest).takeWhile (· = q) = List.replicate n q := by
  refine takeWhile_append_stop (by simp) fun d hd => ?_
  have hne : d ≠ q := fun e => h (e ▸ hd)
  simp [hne]

/-- `w` stands for the text `s` between the quotes of a text of form `f`, behind `run` quotes
that stand side by side. -/
inductive Spells (f : TextForm) : Nat → List Char → List Char → Prop
  | nil {run : Nat} : Spells f run [] []
  /-- Of several lines, two quotes in a row do not close the text. -/
  | quote {run : Nat} {w s : List Char} : f.multiline = true → run < 2 →
      Spells f (run + 1) w s → Spells f run (f.quote :: w) (f.quote :: s)
  | newline {run : Nat} {w s : List Char} : f.multiline = true →
      Spells f 0 w s → Spells f run ('\n' :: w) ('\n' :: s)
  | plain {run : Nat} {c : Char} {w s : List Char} : c ≠ f.quote →
      (f.hasEscapes = true → c ≠ '\\') → isPlainChar c = true →
      Spells f 0 w s → Spells f run (c :: w) (c :: s)
  | escape {run : Nat} {e : List Char} {c : Char} {w s : List Char} : f.hasEscapes = true →
      (∀ r, escape? (e ++ r) = some (c, r)) →
      Spells f 0 w s → Spells f run ('\\' :: (e ++ w)) (c :: s)

/-- The quotes at the front are too few to close the text, and behind them stands another
character or nothing. -/
theorem Spells.leading (hf : f ∈ forms) (h : Spells f run w s) (hrun : run ≤ 2) :
    ∃ k, k + run ≤ 2 ∧ ((w = List.replicate k f.quote ∧ s = List.replicate k f.quote) ∨
      ∃ c w', c ≠ f.quote ∧ w = List.replicate k f.quote ++ c :: w') := by
  have hquote := TextForm.quote_of_mem hf
  induction h with
  | nil => exact ⟨0, by omega, .inl ⟨rfl, rfl⟩⟩
  | quote _ hless _ ih =>
    obtain ⟨k, hk, hends⟩ := ih (by omega)
    refine ⟨k + 1, by omega, ?_⟩
    rcases hends with ⟨rfl, rfl⟩ | ⟨c, w', hc, rfl⟩
    · exact .inl ⟨rfl, rfl⟩
    · exact .inr ⟨c, w', hc, rfl⟩
  | newline =>
    have hne : '\n' ≠ f.quote := by rcases hquote with hq | hq <;> simp [hq]
    exact ⟨0, by omega, .inr ⟨_, _, hne, rfl⟩⟩
  | plain hne => exact ⟨0, by omega, .inr ⟨_, _, hne, rfl⟩⟩
  | escape =>
    have hne : '\\' ≠ f.quote := by rcases hquote with hq | hq <;> simp [hq]
    exact ⟨0, by omega, .inr ⟨_, _, hne, rfl⟩⟩

/-! ## Reading -/

/-- What is read as an escape does not stand at the end of a line. -/
theorem continued?_of_escape? {out : Char × List Char} (h : escape? cs = some out) :
    continued? cs = none := by
  unfold escape? at h
  split at h <;> first | rfl | cases h

theorem afterBreak?_of_isPlainChar (h : isPlainChar c = true) : afterBreak? (c :: rest) = none := by
  unfold afterBreak?
  split
  · rename_i heq
    cases heq
    exact absurd h (by decide)
  · rename_i heq
    cases heq
    exact absurd h (by decide)
  · rfl

section Body

variable {fuel : Nat}

/-- One line ends at its first quote. -/
theorem body?_close (hone : f.multiline = false) :
    body? f (fuel + 1) (f.quote :: rest) = some ([], rest) := by
  simp [body?, hone]

/-- Several lines end with three quotes, and up to two more in front of them belong to the
text. -/
theorem body?_close_lines (hlines : f.multiline = true) {k : Nat} (hk : k ≤ 2)
    (hrest : rest.head? ≠ some f.quote) :
    body? f (fuel + 1) (List.replicate (k + 3) f.quote ++ rest) =
      some (List.replicate k f.quote, rest) := by
  have hrun := takeWhile_replicate_append (k + 3) hrest
  have hcons : List.replicate (k + 3) f.quote ++ rest =
      f.quote :: (List.replicate (k + 2) f.quote ++ rest) := rfl
  rw [hcons] at hrun ⊢
  have hlong : ¬ k + 3 < 3 := by omega
  have hmin : min (k + 3) longestEnd = k + 3 := Nat.min_eq_left (by unfold longestEnd; omega)
  have hdrop : (f.quote :: (List.replicate (k + 2) f.quote ++ rest)).drop (k + 3) = rest := by
    rw [← hcons, List.drop_left' List.length_replicate]
  simp only [body?, hlines, hrun, List.length_replicate, hlong, hmin, hdrop]
  simp

/-- A quote among at most two is part of several lines. -/
theorem body?_quote (hlines : f.multiline = true) {k : Nat} (hk : k + 1 ≤ 2) (hc : c ≠ f.quote) :
    body? f (fuel + 1) (f.quote :: (List.replicate k f.quote ++ c :: rest)) =
      (body? f fuel (List.replicate k f.quote ++ c :: rest)).map fun (cs, r) =>
        (f.quote :: cs, r) := by
  have hrun : (List.replicate (k + 1) f.quote ++ c :: rest).takeWhile (· = f.quote) =
      List.replicate (k + 1) f.quote :=
    takeWhile_replicate_append (k + 1) (fun e => hc (Option.some.inj e))
  have hcons : List.replicate (k + 1) f.quote ++ c :: rest =
      f.quote :: (List.replicate k f.quote ++ c :: rest) := rfl
  rw [hcons] at hrun
  have hshort : k + 1 < 3 := by omega
  simp [body?, hlines, hrun, hshort]

theorem body?_newline (hf : f ∈ forms) (hlines : f.multiline = true) :
    body? f (fuel + 1) ('\n' :: rest) =
      (body? f fuel rest).map fun (cs, r) => ('\n' :: cs, r) := by
  have hne : '\n' ≠ f.quote := by
    rcases TextForm.quote_of_mem hf with hq | hq <;> simp [hq]
  simp [body?, hlines, hne, afterBreak?]

theorem body?_plain (hne : c ≠ f.quote) (hslash : f.hasEscapes = true → c ≠ '\\')
    (hplain : isPlainChar c = true) :
    body? f (fuel + 1) (c :: rest) = (body? f fuel rest).map fun (cs, r) => (c :: cs, r) := by
  have hescape : (decide (c = '\\') && f.hasEscapes) = false := by
    cases hf : f.hasEscapes with
    | false => exact Bool.and_false _
    | true => simp [hslash hf]
  simp [body?, hne, hescape, afterBreak?_of_isPlainChar hplain, hplain]

theorem body?_escape (hf : f.hasEscapes = true) (h : escape? cs = some (c, rest)) :
    body? f (fuel + 1) ('\\' :: cs) = (body? f fuel rest).map fun (s, r) => (c :: s, r) := by
  have hne : '\\' ≠ f.quote := by
    rw [TextForm.quote_eq_of_hasEscapes hf]
    decide
  simp [body?, hne, hf, h, continued?_of_escape? h]

end Body

/-- **What spells a text is read as that text**, and what stands behind its quotes is left. -/
theorem body?_of_spells (hf : f ∈ forms) (h : Spells f run w s)
    (hrest : rest.head? ≠ some f.quote) {fuel : Nat}
    (hfuel : (w ++ (f.delimiter ++ rest)).length < fuel) :
    body? f fuel (w ++ (f.delimiter ++ rest)) = some (s, rest) := by
  induction h generalizing fuel with
  | nil =>
    obtain ⟨fuel, rfl⟩ := Nat.exists_eq_succ_of_ne_zero (Nat.ne_zero_of_lt hfuel)
    cases hlines : f.multiline with
    | false => simpa [TextForm.delimiter, hlines] using body?_close hlines
    | true =>
      simpa [TextForm.delimiter, hlines] using body?_close_lines hlines (k := 0) (by omega) hrest
  | @quote run w s hlines hless h ih =>
    obtain ⟨fuel, rfl⟩ := Nat.exists_eq_succ_of_ne_zero (Nat.ne_zero_of_lt hfuel)
    obtain ⟨k, hk, ⟨rfl, rfl⟩ | ⟨c, w', hc, rfl⟩⟩ := h.leading hf (by omega)
    · -- only quotes are left, and the three that close the text stand right behind them
      have hclose : body? f (fuel + 1) _ = _ :=
        body?_close_lines hlines (k := k + 1) (by omega) hrest
      have hall : f.quote :: List.replicate k f.quote ++ (f.delimiter ++ rest) =
          List.replicate (k + 1 + 3) f.quote ++ rest := by
        simp only [TextForm.delimiter, hlines, if_pos, ← List.replicate_succ, ← List.append_assoc,
          List.replicate_append_replicate]
      rw [hall, hclose, List.replicate_succ]
    · have hread := @ih fuel (by simp at hfuel ⊢; omega)
      rw [List.append_assoc, List.cons_append] at hread
      rw [List.cons_append, List.append_assoc, List.cons_append,
        body?_quote hlines (by omega) hc, hread]
      rfl
  | newline hlines _ ih =>
    obtain ⟨fuel, rfl⟩ := Nat.exists_eq_succ_of_ne_zero (Nat.ne_zero_of_lt hfuel)
    have hread := @ih fuel (by simp at hfuel ⊢; omega)
    rw [List.cons_append, body?_newline hf hlines, hread]
    rfl
  | plain hne hslash hplain _ ih =>
    obtain ⟨fuel, rfl⟩ := Nat.exists_eq_succ_of_ne_zero (Nat.ne_zero_of_lt hfuel)
    have hread := @ih fuel (by simp at hfuel ⊢; omega)
    rw [List.cons_append, body?_plain hne hslash hplain, hread]
    rfl
  | escape hescapes hread _ ih =>
    obtain ⟨fuel, rfl⟩ := Nat.exists_eq_succ_of_ne_zero (Nat.ne_zero_of_lt hfuel)
    have hrest := @ih fuel (by simp at hfuel ⊢; omega)
    rw [List.cons_append, List.append_assoc, body?_escape hescapes (hread _), hrest]
    rfl

/-! ## Writing -/

/-- A short escape reads back as its character. -/
theorem shortEscape?_eq_some {e : List Char} (h : shortEscape? c = some e) :
    ∃ e', e = '\\' :: e' ∧ ∀ r, escape? (e' ++ r) = some (c, r) := by
  unfold shortEscape? at h
  split at h <;> cases h <;> exact ⟨_, rfl, fun _ => rfl⟩

theorem toNat_lt_of_needsEscape (h : needsEscape c = true) : c.toNat < 128 := by
  simp only [needsEscape, isPlainChar, Bool.and_eq_true, Bool.not_eq_true', Bool.or_eq_false_iff,
    Bool.and_eq_false_iff, decide_eq_false_iff_not] at h
  omega

/-- What the four digits of an escape spell. -/
theorem numberedEscape_digits : ∀ n < 128,
    (numberedEscape (Char.ofNat n)).take 2 = ['\\', 'u'] ∧
      ((numberedEscape (Char.ofNat n)).drop 2).length = 4 ∧
      ((numberedEscape (Char.ofNat n)).drop 2).foldlM
        (fun n d => (Hex.value d).map (16 * n + ·)) 0 = some n ∧
      charOf? n = some (Char.ofNat n) := by
  decide +kernel

/-- A numbered escape reads back as its character. -/
theorem numberedEscape_eq (h : needsEscape c = true) :
    ∃ e, numberedEscape c = '\\' :: e ∧ ∀ r, escape? (e ++ r) = some (c, r) := by
  have hdigits := numberedEscape_digits c.toNat (toNat_lt_of_needsEscape h)
  rw [Char.ofNat_toNat] at hdigits
  obtain ⟨hfront, hlength, hvalue, hchar⟩ := hdigits
  refine ⟨'u' :: (numberedEscape c).drop 2, ?_, fun r => ?_⟩
  · have hsplit := List.take_append_drop 2 (numberedEscape c)
    rw [hfront] at hsplit
    exact hsplit.symm
  · show numbered? 4 ((numberedEscape c).drop 2 ++ r) = some (c, r)
    have hdigits : ((numberedEscape c).drop 2 ++ r).take 4 = (numberedEscape c).drop 2 :=
      List.take_left' hlength
    have hrest : ((numberedEscape c).drop 2 ++ r).drop 4 = r := List.drop_left' hlength
    simp [numbered?, hdigits, hrest, hlength, hvalue, hchar]

/-- **A text with escapes spells the text.** -/
theorem spells_escaped (hf : f.hasEscapes = true) (run : Nat) (cs : List Char) :
    Spells f run (escaped f run cs) cs := by
  have hquote := TextForm.quote_eq_of_hasEscapes hf
  induction cs generalizing run with
  | nil => exact .nil
  | cons c r ih =>
    rw [escaped]
    by_cases hc : c = '"'
    · subst hc
      rw [if_pos rfl]
      by_cases hrun : run < if f.multiline then 2 else 0
      · rw [if_pos hrun]
        have hlines : f.multiline = true := by
          by_contra hone
          simp [hone] at hrun
        rw [if_pos hlines] at hrun
        rw [← hquote]
        exact .quote hlines hrun (ih (run + 1))
      · rw [if_neg hrun]
        exact .escape (e := ['"']) hf (fun _ => rfl) (ih 0)
    rw [if_neg hc]
    split
    · rename_i hline
      simp only [Bool.and_eq_true, decide_eq_true_eq] at hline
      rw [hline.1]
      exact .newline hline.2 (ih 0)
    split
    · rename_i e he
      obtain ⟨e, rfl, hread⟩ := shortEscape?_eq_some he
      exact .escape hf hread (ih 0)
    · rename_i hshort
      split
      · rename_i hneeds
        obtain ⟨e, he, hread⟩ := numberedEscape_eq hneeds
        rw [he]
        exact .escape hf hread (ih 0)
      · rename_i hneeds
        have hslash : c ≠ '\\' := by
          rintro rfl
          cases hshort
        have hline : c ≠ '\n' := by
          rintro rfl
          cases hshort
        have hplain : isPlainChar c = true := by
          simpa [needsEscape, hline] using hneeds
        exact .plain (hquote ▸ hc) (fun _ => hslash) hplain (ih 0)

theorem le_longestRunFrom (q : Char) (run : Nat) (cs : List Char) :
    run ≤ longestRunFrom q run cs := by
  induction cs generalizing run with
  | nil => exact Nat.le_refl run
  | cons c r ih =>
    rw [longestRunFrom]
    split
    · have := ih (run + 1)
      omega
    · exact Nat.le_max_left ..

/-- **A text that fits a form without escapes spells itself.** -/
theorem spells_of_longestRunFrom (hf : f.hasEscapes = false)
    (hplain : ∀ c ∈ cs, needsEscape c = false) (hlines : f.multiline = true ∨ '\n' ∉ cs)
    (hrun : longestRunFrom f.quote run cs ≤ if f.multiline then 2 else 0) :
    Spells f run cs cs := by
  induction cs generalizing run with
  | nil => exact .nil
  | cons c r ih =>
    have hr : ∀ c ∈ r, needsEscape c = false := fun d hd => hplain d (List.mem_cons_of_mem c hd)
    have hlines' : f.multiline = true ∨ '\n' ∉ r :=
      hlines.imp_right fun h hmem => h (List.mem_cons_of_mem c hmem)
    rw [longestRunFrom] at hrun
    split at hrun
    · rename_i hc
      have hle := le_longestRunFrom f.quote (run + 1) r
      have hmulti : f.multiline = true := by
        by_contra hone
        rw [if_neg hone] at hrun
        omega
      have hless : run < 2 := by
        rw [if_pos hmulti] at hrun
        omega
      rw [hc]
      exact .quote hmulti hless (ih hr hlines' hrun)
    · rename_i hc
      have hrest := ih hr hlines' (Nat.le_trans (Nat.le_max_right ..) hrun)
      by_cases hline : c = '\n'
      · subst hline
        have hmulti : f.multiline = true := by
          rcases hlines with h | h
          · exact h
          · exact absurd List.mem_cons_self h
        exact .newline hmulti hrest
      · have hneeds := hplain c List.mem_cons_self
        have hc' : isPlainChar c = true := by simpa [needsEscape, hline] using hneeds
        exact .plain hc (fun h => by rw [hf] at h; cases h) hc' hrest

/-! ## Both ways -/

/-- The characters between the quotes of a text that is written. -/
def between (f : TextForm) (cs : List Char) : List Char :=
  if f.hasEscapes then escaped f 0 cs else cs

/-- A form in which a text can be written. -/
def Suits (f : TextForm) (cs : List Char) : Prop :=
  f ∈ forms ∧ (f.hasEscapes = true ∨ fits f cs = true)

theorem suits_formOf (cs : List Char) : Suits (formOf cs) cs := by
  unfold formOf
  split
  · rename_i f hfind
    exact ⟨List.mem_of_find?_eq_some hfind, .inr (List.find?_some (p := (fits · cs)) hfind)⟩
  · split
    · exact ⟨by decide, .inl rfl⟩
    · exact ⟨by decide, .inl rfl⟩

theorem suits_keyForm (cs : List Char) : Suits (keyForm cs) cs := by
  unfold keyForm
  split
  · rename_i f hfind
    have hmem : f ∈ [TextForm.basic, TextForm.literal] := List.mem_of_find?_eq_some hfind
    refine ⟨?_, .inr (List.find?_some (p := (fits · cs)) hfind)⟩
    simp only [List.mem_cons, List.not_mem_nil, or_false] at hmem
    rcases hmem with rfl | rfl <;> decide
  · exact ⟨by decide, .inl rfl⟩

theorem multiline_keyForm (cs : List Char) : (keyForm cs).multiline = false := by
  unfold keyForm
  split
  · rename_i f hfind
    have hmem : f ∈ [TextForm.basic, TextForm.literal] := List.mem_of_find?_eq_some hfind
    simp only [List.mem_cons, List.not_mem_nil, or_false] at hmem
    rcases hmem with rfl | rfl <;> rfl
  · rfl

namespace Suits

theorem spells (h : Suits f cs) : Spells f 0 (between f cs) cs := by
  obtain ⟨-, hsuits⟩ := h
  unfold between
  cases hf : f.hasEscapes with
  | true => exact spells_escaped hf 0 cs
  | false =>
    have hfits : fits f cs = true := by
      rcases hsuits with h | h
      · rw [hf] at h
        cases h
      · exact h
    simp only [fits, longestRun, Bool.and_eq_true, decide_eq_true_eq, Bool.not_eq_true',
      List.any_eq_false, Bool.or_eq_true, Bool.not_eq_true] at hfits
    obtain ⟨⟨⟨hneeds, hlines⟩, hrun⟩, -⟩ := hfits
    exact spells_of_longestRunFrom hf hneeds hlines (of_decide_eq_true hrun)

/-- **What is written between quotes is read up to the quotes that close it.** -/
theorem textFrom? (h : Suits f cs) (hrest : rest.head? ≠ some f.quote) :
    textFrom? f (between f cs ++ (f.delimiter ++ rest)) = some (String.ofList cs, rest) := by
  have hread := body?_of_spells h.1 h.spells hrest (Nat.lt_succ_self _)
  rw [Toml.textFrom?, hread]
  rfl

end Suits

/-- A character that a writer puts behind a value. -/
def isEnd (c : Char) : Bool := c = '\n' || c = ',' || c = ']' || c = ' ' || c = '\x7d'

/-- What may stand behind a value. -/
def Ends (cs : List Char) : Prop := ∀ c ∈ cs.head?, isEnd c = true

theorem ends_cons (h : isEnd c = true) (cs : List Char) : Ends (c :: cs) :=
  fun _ hd => Option.some.inj hd ▸ h

theorem Ends.head?_ne_quote (h : Ends rest) (hf : f ∈ forms) : rest.head? ≠ some f.quote := by
  intro hhead
  have hquote := h f.quote hhead
  rcases TextForm.quote_of_mem hf with hq | hq <;> rw [hq] at hquote <;> cases hquote

theorem text?_line (hf : f ∈ forms) (hone : f.multiline = false)
    (hopen : ∀ r, cs ≠ f.quote :: f.quote :: r) : text? (f.quote :: cs) = textFrom? f cs := by
  simp only [forms, List.mem_cons, List.not_mem_nil, or_false] at hf
  rcases hf with rfl | rfl | rfl | rfl
  · exact text?.eq_3 cs hopen
  · exact text?.eq_4 cs hopen
  · cases hone
  · cases hone

theorem text?_lines (hf : f ∈ forms) (hlines : f.multiline = true) (cs : List Char) :
    text? (f.delimiter ++ cs) = textFrom? f (skipBreak cs) := by
  simp only [forms, List.mem_cons, List.not_mem_nil, or_false] at hf
  rcases hf with rfl | rfl | rfl | rfl
  · cases hlines
  · cases hlines
  · rfl
  · rfl

/-- A text of one line does not begin with its quote. -/
theorem Spells.head?_ne_quote (hf : f ∈ forms) (h : Spells f run w s) (hone : f.multiline = false) :
    w.head? ≠ some f.quote := by
  cases h with
  | nil => nofun
  | quote hlines | newline hlines =>
    rw [hone] at hlines
    cases hlines
  | plain hne => exact fun h => hne (Option.some.inj h)
  | escape =>
    intro hhead
    have hslash : '\\' = f.quote := Option.some.inj hhead
    rcases TextForm.quote_of_mem hf with hq | hq <;> rw [hq] at hslash <;>
      exact absurd hslash (by decide)

/-- A text without line breaks does not begin with one. -/
theorem Spells.afterBreak?_eq_none (hf : f ∈ forms) (h : Spells f run w s) (hs : '\n' ∉ s) :
    afterBreak? (w ++ (f.delimiter ++ rest)) = none := by
  have hquote : ∀ r, afterBreak? (f.quote :: r) = none := fun r => by
    rcases TextForm.quote_of_mem hf with hq | hq <;> rw [hq] <;> rfl
  cases h with
  | nil =>
    unfold TextForm.delimiter
    split <;> exact hquote _
  | quote => exact hquote _
  | newline => exact absurd List.mem_cons_self hs
  | plain _ _ hplain => exact afterBreak?_of_isPlainChar hplain
  | escape => rfl

/-- **A text reads back from any form that suits it.** -/
theorem text?_writeAs (h : Suits f cs) (hrest : Ends rest) :
    text? (writeAs f cs ++ rest) = some (String.ofList cs, rest) := by
  have hread := h.textFrom? (hrest.head?_ne_quote h.1)
  have hspells := h.spells
  have hwritten : writeAs f cs ++ rest = f.delimiter ++
      ((if f.multiline && '\n' ∈ cs then ['\n'] else []) ++
        (between f cs ++ (f.delimiter ++ rest))) := by
    simp only [writeAs, between, List.append_assoc]
  rw [hwritten]
  cases hlines : f.multiline with
  | false =>
    -- a second quote follows the first one only where it closes an empty text
    have hopen : ∀ r, between f cs ++ (f.delimiter ++ rest) ≠ f.quote :: f.quote :: r := by
      intro r heq
      have hdelimiter : f.delimiter = [f.quote] := by simp [TextForm.delimiter, hlines]
      have hhead := hspells.head?_ne_quote h.1 hlines
      cases hbetween : between f cs with
      | nil =>
        rw [hbetween, hdelimiter] at heq
        have hquotes : rest = f.quote :: r := (List.cons.inj heq).2
        exact hrest.head?_ne_quote h.1 (congrArg List.head? hquotes)
      | cons d w =>
        rw [hbetween] at heq hhead
        exact hhead (congrArg some (List.cons.inj heq).1)
    have hline := text?_line h.1 hlines hopen
    rw [hread] at hline
    simpa [TextForm.delimiter, hlines] using hline
  | true =>
    rw [text?_lines h.1 hlines]
    by_cases hbreak : '\n' ∈ cs
    · simpa [hbreak, skipBreak, afterBreak?] using hread
    · simpa [hbreak, skipBreak, hspells.afterBreak?_eq_none h.1 hbreak] using hread

/-- **Every text reads back as it was written.** -/
theorem text?_writeText (s : String) (hrest : Ends rest) :
    text? (writeText s ++ rest) = some (s, rest) := by
  have hread := text?_writeAs (suits_formOf s.toList) hrest
  rwa [String.ofList_toList] at hread

end Toml

end Onboarding
