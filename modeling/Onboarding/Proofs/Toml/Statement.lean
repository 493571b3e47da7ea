import Onboarding.Proofs.Toml.Value
/-!
# TOML statements — a file reads back line by line

Each statement stands on a line of its own and reads back from it (`Statement.read?_write`).
The reader has as many lines as the file has characters, and neither the blank line before
a header nor the mark of the byte order comes in between (`Statement.readAll?_writeAll`).
-/

namespace Onboarding

namespace Toml

variable {c : Char} {cs rest : List Char} {path : List String} {s : Statement}
  {ss : List Statement}

/-- The parts of a key of a table or of a value. -/
structure IsPath (path : List String) : Prop where
  ne_nil : path ≠ []
  length_le : path.length ≤ keyLimit

/-- A statement that can be written. -/
def Statement.Writable : Statement → Prop
  | .table path => IsPath path
  | .item path => IsPath path
  | .assign path v => IsPath path ∧ Toml.Writable keyLimit v

/-! ## Lines -/

theorem afterLine?_break (cs : List Char) : afterLine? ('\n' :: cs) = some cs := rfl

theorem afterLine?_ink (h : isInk c = true) : afterLine? (c :: cs) = none := by
  obtain ⟨-, -, -, -, hmark⟩ := isInk_ne h
  unfold afterLine?
  rw [skipBlanks_ink h]
  dsimp only
  split
  · rename_i heq
    exact absurd (List.cons.inj heq).1 hmark
  · rw [if_neg (by simp)]
    exact afterBreak?_ink h

namespace Statement

/-- What a header or the key of a value begins with. -/
def isFront (c : Char) : Bool := isKeyFront c || c = '['

theorem isInk_of_isFront (h : isFront c = true) : isInk c = true := by
  simp only [isFront, Bool.or_eq_true, decide_eq_true_eq] at h
  rcases h with h | rfl
  · exact isInk_of_isKeyFront h
  · rfl

theorem Writable.exists_front (h : s.Writable) : ∃ c r, s.write = c :: r ∧ isFront c = true := by
  cases s with
  | table path => exact ⟨'[', _, rfl, rfl⟩
  | item path => exact ⟨'[', _, rfl, rfl⟩
  | assign path v =>
    obtain ⟨c, r, hwritten, hc⟩ := exists_front_writeKey h.1.ne_nil
    refine ⟨c, r ++ " = ".toList ++ v.write ++ ['\n'], ?_, by simp [isFront, hc]⟩
    rw [write, hwritten]
    rfl

/-! ## Statements -/

/-- A key between brackets reads back. -/
theorem header?_written (h : IsPath path) {closing : String} {more : List Char}
    (hclosing : closing.toList = ']' :: more) :
    header? closing (writeKey path ++ (closing.toList ++ rest)) = some (path, rest) := by
  have hends : EndsKey (closing.toList ++ rest) := by
    rw [hclosing]
    exact endsKey_cons rfl _
  have hskip : skipBlanks (closing.toList ++ rest) = closing.toList ++ rest := by
    rw [hclosing]
    exact skipBlanks_ink rfl
  have hdot : ∀ r, skipBlanks (closing.toList ++ rest) ≠ '.' :: r := fun r heq => by
    rw [hskip, hclosing] at heq
    cases (List.cons.inj heq).1
  have hkey := key?_writeKey h.ne_nil h.length_le hends hdot
  rw [header?, hkey, hskip]
  dsimp only
  rw [afterWord?_append]
  rfl

/-- **A statement reads back from its line.** -/
theorem read?_write (h : s.Writable) (cs : List Char) :
    read? (s.write ++ cs) = some (s, '\n' :: cs) := by
  cases s with
  | table path =>
    have hheader : header? "]" _ = some (path, '\n' :: cs) := header?_written h rfl
    obtain ⟨c, r, hwritten, hc⟩ := exists_front_writeKey h.ne_nil
    have hsingle : ∀ r', writeKey path ++ (']' :: '\n' :: cs) ≠ '[' :: r' := fun r' heq => by
      rw [hwritten] at heq
      exact isKeyFront_ne hc rfl (List.cons.inj heq).1
    have hline : (table path).write ++ cs = '[' :: (writeKey path ++ (']' :: '\n' :: cs)) := by
      simp [write]
    rw [hline, read?.eq_2 _ hsingle]
    exact congrArg (Option.map _) hheader
  | item path =>
    have hheader : header? "]]" _ = some (path, '\n' :: cs) := header?_written h rfl
    have hline : (item path).write ++ cs =
        '[' :: '[' :: (writeKey path ++ ("]]".toList ++ '\n' :: cs)) := by
      simp [write]
    rw [hline, read?]
    exact congrArg (Option.map _) hheader
  | assign path v =>
    obtain ⟨hpath, hv⟩ := h
    have hends : Ends ('\n' :: cs) := ends_cons rfl cs
    have hassign := assignment?_written hpath.ne_nil hpath.length_le hv (value?_write hv) hends
    obtain ⟨c, r, hwritten, hc⟩ := exists_front_writeKey hpath.ne_nil
    have hline : (assign path v).write ++ cs =
        writeKey path ++ (" = ".toList ++ (v.write ++ '\n' :: cs)) := by
      simp [write]
    have hbracket : ∀ r', writeKey path ++ (" = ".toList ++ (v.write ++ '\n' :: cs)) ≠ '[' :: r' :=
      fun r' heq => by
        rw [hwritten] at heq
        exact isKeyFront_ne hc rfl (List.cons.inj heq).1
    rw [hline, read?.eq_3 _ (fun r => hbracket _) hbracket]
    exact congrArg (Option.map _) hassign

/-! ## Files -/

variable {lines : Nat}

theorem readLines?_blank (cs : List Char) :
    readLines? (lines + 1) ('\n' :: cs) = readLines? lines cs := by
  rw [readLines?, afterLine?_break]
  exact List.cons_ne_nil _ _

theorem readLines?_write (h : s.Writable) (cs : List Char) :
    readLines? (lines + 1) (s.write ++ cs) = (readLines? lines cs).map (s :: ·) := by
  have hread := read?_write h cs
  obtain ⟨c, r, hwritten, hc⟩ := h.exists_front
  have hink := isInk_of_isFront hc
  rw [hwritten, List.cons_append] at hread ⊢
  rw [readLines?, afterLine?_ink hink, skipBlanks_ink hink, hread]
  · rfl
  · exact List.cons_ne_nil _ _

/-- Statements on their lines read back, if there are lines enough. -/
theorem readLines?_writeRest (h : ∀ s ∈ ss, s.Writable) (hlines : (writeRest ss).length ≤ lines) :
    readLines? lines (writeRest ss) = some ss := by
  induction ss generalizing lines with
  | nil => cases lines <;> rfl
  | cons s ss ih =>
    have hs := h s List.mem_cons_self
    obtain ⟨c, r, hwritten, -⟩ := hs.exists_front
    have hpos : 0 < s.write.length := by
      rw [hwritten]
      exact Nat.succ_pos _
    have hrest (lines : Nat) (hlines : (writeRest ss).length ≤ lines) :
        readLines? lines (writeRest ss) = some ss :=
      ih (fun t ht => h t (List.mem_cons_of_mem s ht)) hlines
    have hcons : writeRest (s :: ss) =
        (if s.isHeader then ['\n'] else []) ++ (s.write ++ writeRest ss) := by
      simp [writeRest]
    rw [hcons, List.length_append, List.length_append] at hlines
    rw [hcons]
    cases hheader : s.isHeader with
    | false =>
      rw [hheader] at hlines
      obtain ⟨lines, rfl⟩ : ∃ n, lines = n + 1 := ⟨lines - 1, by omega⟩
      have hread : readLines? (lines + 1) _ = _ := readLines?_write hs (writeRest ss)
      rw [hrest lines (by simp at hlines; omega)] at hread
      exact hread
    | true =>
      rw [hheader] at hlines
      obtain ⟨lines, rfl⟩ : ∃ n, lines = n + 2 := ⟨lines - 2, by simp at hlines; omega⟩
      have hread : readLines? (lines + 1) _ = _ := readLines?_write hs (writeRest ss)
      rw [hrest lines (by simp at hlines; omega)] at hread
      exact (readLines?_blank _).trans hread

/-- **Statements read back from the file they are written to.** -/
theorem readAll?_writeAll (h : ∀ s ∈ ss, s.Writable) : readAll? (writeAll ss) = some ss := by
  cases ss with
  | nil => rfl
  | cons s ss =>
    have hs := h s List.mem_cons_self
    have hrest : ∀ t ∈ ss, t.Writable := fun t ht => h t (List.mem_cons_of_mem s ht)
    obtain ⟨c, r, hwritten, hc⟩ := hs.exists_front
    have hmark : c ≠ orderMark := by
      rintro rfl
      cases hc
    have htext : (writeAll (s :: ss)).toList = c :: (r ++ writeRest ss) := by
      rw [writeAll, String.toList_ofList, hwritten, List.cons_append]
    have hlines : readLines? ((r ++ writeRest ss).length + 1) _ = _ :=
      readLines?_write hs (writeRest ss)
    rw [readLines?_writeRest hrest (by rw [List.length_append]; omega), hwritten,
      List.cons_append] at hlines
    unfold readAll?
    rw [htext]
    dsimp only
    rw [if_neg hmark]
    exact hlines

end Statement

end Toml

end Onboarding
