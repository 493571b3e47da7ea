import Onboarding.Proofs.Toml.Nodes
import Onboarding.Proofs.Toml.Number
import Onboarding.Toml.Writer
/-!
# TOML values — keys and values read back

A key reads back part by part (`key?_writeKey`), and a value by induction on how it is built
(`value?_write`): `Writable` says that a value holds texts, integers, truth values and
containers of such, no more of them in one another than a file may nest. What is written
for a value begins with a character that no blank, line break or comment begins with, so
that the reader finds it behind them.
-/

namespace Onboarding

namespace Toml

variable {c : Char} {cs rest : List Char}

/-! ## Ink: what is no blank, no line break and no comment -/

/-- A character that a reader does not pass over. -/
def isInk (c : Char) : Bool := !(c = ' ' || c = '\t' || c = '\n' || c = '\r' || c = '#')

theorem isInk_ne (h : isInk c = true) : c ≠ ' ' ∧ c ≠ '\t' ∧ c ≠ '\n' ∧ c ≠ '\r' ∧ c ≠ '#' := by
  simpa [isInk, and_assoc] using h

theorem isBlankChar_of_isInk (h : isInk c = true) : isBlankChar c = false := by
  obtain ⟨hspace, htab, -⟩ := isInk_ne h
  simp [isBlankChar, hspace, htab]

/-- Blanks are passed over up to the next character that is none. -/
theorem skipBlanks_append (blanks : List Char) (hblanks : ∀ b ∈ blanks, isBlankChar b = true)
    (hc : isBlankChar c = false) : skipBlanks (blanks ++ c :: cs) = c :: cs :=
  dropWhile_append_stop hblanks fun d hd => by
    rw [← Option.some.inj hd]
    exact hc

theorem skipBlanks_ink (h : isInk c = true) : skipBlanks (c :: cs) = c :: cs :=
  skipBlanks_append [] nofun (isBlankChar_of_isInk h)

theorem afterBreak?_ink (h : isInk c = true) : afterBreak? (c :: cs) = none := by
  obtain ⟨-, -, hfeed, hreturn, -⟩ := isInk_ne h
  exact afterBreak?.eq_3 _ (fun r heq => hfeed (List.cons.inj heq).1)
    (fun r heq => hreturn (List.cons.inj heq).1)

theorem skipTrivia_blanks (blanks : List Char) (hblanks : ∀ b ∈ blanks, isBlankChar b = true)
    (hc : isInk c = true) (n : Nat) : skipTrivia (n + 1) (blanks ++ c :: cs) = c :: cs := by
  have hskip : skipBlanks (blanks ++ c :: cs) = c :: cs :=
    skipBlanks_append blanks hblanks (isBlankChar_of_isInk hc)
  obtain ⟨-, -, -, -, hmark⟩ := isInk_ne hc
  rw [skipTrivia, hskip]
  split
  · rename_i r heq
    split at heq
    · rename_i heq'
      exact absurd (List.cons.inj heq').1 hmark
    · rw [afterBreak?_ink hc] at heq
      cases heq
  · rfl

theorem skipBetween_ink (hc : isInk c = true) : skipBetween (c :: cs) = c :: cs :=
  skipTrivia_blanks [] nofun hc _

/-- What stands on the next line is found behind the blanks at its front. -/
theorem skipBetween_line (blanks : List Char) (hblanks : ∀ b ∈ blanks, isBlankChar b = true)
    (hc : isInk c = true) : skipBetween ('\n' :: (blanks ++ c :: cs)) = c :: cs := by
  have hlength : ('\n' :: (blanks ++ c :: cs)).length = (blanks.length + cs.length + 1) + 1 := by
    simp only [List.length_cons, List.length_append]
    omega
  rw [skipBetween, hlength]
  exact skipTrivia_blanks blanks hblanks hc (blanks.length + cs.length)

/-! ## Keys -/

/-- A written key begins with a bare character or a quote. -/
def isKeyFront (c : Char) : Bool := isBareChar c || c = '"' || c = '\''

theorem isBareChar_ne (h : isBareChar c = true) {d : Char} (hd : isBareChar d = false) : c ≠ d := by
  rintro rfl
  rw [hd] at h
  cases h

theorem isKeyFront_ne (h : isKeyFront c = true) {d : Char} (hd : isKeyFront d = false) : c ≠ d := by
  rintro rfl
  rw [hd] at h
  cases h

theorem isInk_of_isKeyFront (h : isKeyFront c = true) : isInk c = true := by
  have hne {d : Char} := isKeyFront_ne (d := d) h
  simp [isInk, hne (d := ' ') rfl, hne (d := '\t') rfl, hne (d := '\n') rfl, hne (d := '\r') rfl,
    hne (d := '#') rfl]

/-- A character that a writer puts behind a part of a key. -/
def isKeyEnd (c : Char) : Bool := c = '.' || c = ' ' || c = ']'

/-- What may stand behind a part of a key. -/
def EndsKey (cs : List Char) : Prop := ∀ c ∈ cs.head?, isKeyEnd c = true

theorem endsKey_cons (h : isKeyEnd c = true) (cs : List Char) : EndsKey (c :: cs) :=
  fun _ hd => Option.some.inj hd ▸ h

theorem EndsKey.isBareChar (h : EndsKey rest) : ∀ c ∈ rest.head?, isBareChar c = false := by
  intro c hc
  have hend := h c hc
  simp only [isKeyEnd, Bool.or_eq_true, decide_eq_true_eq] at hend
  rcases hend with (rfl | rfl) | rfl <;> rfl

theorem EndsKey.head?_ne_quote (h : EndsKey rest) {f : TextForm} (hf : f ∈ forms) :
    rest.head? ≠ some f.quote := by
  intro hhead
  have hquote := h f.quote hhead
  rcases TextForm.quote_of_mem hf with hq | hq <;> rw [hq] at hquote <;> cases hquote

theorem writeAs_of_line {f : TextForm} (hone : f.multiline = false) :
    writeAs f cs = f.quote :: (between f cs ++ [f.quote]) := by
  simp [writeAs, between, TextForm.delimiter, hone]

/-- The form that a part of a key is written in. -/
theorem writeKeyPart_cases (s : String) :
    (writeKeyPart s = s.toList ∧ s.toList ≠ [] ∧ ∀ c ∈ s.toList, isBareChar c = true) ∨
      writeKeyPart s = writeAs (keyForm s.toList) s.toList := by
  unfold writeKeyPart
  dsimp only
  split
  · rename_i hbare
    simp only [Bool.and_eq_true, Bool.not_eq_true', List.isEmpty_eq_false_iff, List.all_eq_true]
      at hbare
    exact .inl ⟨rfl, hbare⟩
  · exact .inr rfl

theorem exists_front_writeKeyPart (s : String) :
    ∃ c r, writeKeyPart s = c :: r ∧ isKeyFront c = true := by
  rcases writeKeyPart_cases s with ⟨hwritten, hne, hbare⟩ | hwritten
  · obtain ⟨c, r, hs⟩ := List.exists_cons_of_ne_nil hne
    have hc : isBareChar c = true := hbare c (hs ▸ List.mem_cons_self)
    exact ⟨c, r, hwritten.trans hs, by simp [isKeyFront, hc]⟩
  · rw [writeAs_of_line (multiline_keyForm _)] at hwritten
    refine ⟨_, _, hwritten, ?_⟩
    rcases TextForm.quote_of_mem (suits_keyForm s.toList).1 with hq | hq <;> rw [hq] <;> rfl

theorem keyPart?_quote {f : TextForm} (hf : f ∈ forms) (hone : f.multiline = false)
    (cs : List Char) : keyPart? (f.quote :: cs) = textFrom? f cs := by
  simp only [forms, List.mem_cons, List.not_mem_nil, or_false] at hf
  rcases hf with rfl | rfl | rfl | rfl
  · rfl
  · rfl
  · cases hone
  · cases hone

/-- A part of a key reads back. -/
theorem keyPart?_writeKeyPart (s : String) (hrest : EndsKey rest) :
    keyPart? (writeKeyPart s ++ rest) = some (s, rest) := by
  rcases writeKeyPart_cases s with ⟨hwritten, hne, hbare⟩ | hwritten
  · obtain ⟨c, r, hs⟩ := List.exists_cons_of_ne_nil hne
    have hc : isBareChar c = true := hbare c (hs ▸ List.mem_cons_self)
    have hname : (s.toList ++ rest).takeWhile isBareChar = s.toList :=
      takeWhile_append_stop hbare hrest.isBareChar
    have hrest : (s.toList ++ rest).dropWhile isBareChar = rest :=
      dropWhile_append_stop hbare hrest.isBareChar
    have hbasic : ∀ r, s.toList ++ rest ≠ '"' :: r := fun r' heq => by
      rw [hs] at heq
      exact isBareChar_ne hc rfl (List.cons.inj heq).1
    have hliteral : ∀ r, s.toList ++ rest ≠ '\'' :: r := fun r' heq => by
      rw [hs] at heq
      exact isBareChar_ne hc rfl (List.cons.inj heq).1
    rw [hwritten, keyPart?.eq_3 _ hbasic hliteral, hname, hrest]
    split
    · exact absurd ‹_› hne
    · rw [String.ofList_toList]
  · have hone := multiline_keyForm s.toList
    have hsuits := suits_keyForm s.toList
    have hread := hsuits.textFrom? (hrest.head?_ne_quote hsuits.1)
    rw [String.ofList_toList, ← keyPart?_quote hsuits.1 hone] at hread
    rw [hwritten, writeAs_of_line hone]
    simpa [TextForm.delimiter, hone] using hread

theorem writeKey_cons {p : String} {ps : List String} (h : ps ≠ []) :
    writeKey (p :: ps) = writeKeyPart p ++ '.' :: writeKey ps := by
  obtain ⟨q, ps, rfl⟩ := List.exists_cons_of_ne_nil h
  simp [writeKey, List.intercalate_cons_cons]

theorem exists_front_writeKey {path : List String} (h : path ≠ []) :
    ∃ c r, writeKey path = c :: r ∧ isKeyFront c = true := by
  obtain ⟨p, ps, rfl⟩ := List.exists_cons_of_ne_nil h
  obtain ⟨c, r, hp, hc⟩ := exists_front_writeKeyPart p
  cases ps with
  | nil => exact ⟨c, r, by simp [writeKey, hp], hc⟩
  | cons q ps =>
    refine ⟨c, r ++ '.' :: writeKey (q :: ps), ?_, hc⟩
    rw [writeKey_cons (List.cons_ne_nil q ps), hp]
    rfl

/-- The parts of a key read back, as many as a key may have. -/
theorem keyParts?_writeKey {path : List String} (hpath : path ≠ []) {n : Nat}
    (hn : path.length ≤ n) (hrest : EndsKey rest) (hdot : ∀ r, skipBlanks rest ≠ '.' :: r) :
    keyParts? n (writeKey path ++ rest) = some (path, skipBlanks rest) := by
  induction path generalizing n with
  | nil => exact absurd rfl hpath
  | cons p ps ih =>
    obtain ⟨n, rfl⟩ := Nat.exists_eq_succ_of_ne_zero (n := n) (by simp at hn; omega)
    obtain ⟨c, r, hp, hc⟩ := exists_front_writeKeyPart p
    have hskip (cs : List Char) : skipBlanks (writeKeyPart p ++ cs) = writeKeyPart p ++ cs := by
      rw [hp]
      exact skipBlanks_ink (isInk_of_isKeyFront hc)
    rcases eq_or_ne ps [] with rfl | hps
    · have hpart := keyPart?_writeKeyPart p hrest
      have hwritten : writeKey [p] = writeKeyPart p := by simp [writeKey]
      rw [hwritten, keyParts?, hskip, hpart]
      dsimp only
      split
      · exact absurd ‹_› (hdot _)
      · rfl
    · have hends : EndsKey ('.' :: (writeKey ps ++ rest)) := endsKey_cons rfl _
      have hpart := keyPart?_writeKeyPart p hends
      have hread := ih hps (by simpa using hn)
      have hmark : skipBlanks ('.' :: (writeKey ps ++ rest)) = '.' :: (writeKey ps ++ rest) :=
        skipBlanks_ink rfl
      rw [writeKey_cons hps, List.append_assoc, List.cons_append, keyParts?, hskip, hpart]
      dsimp only
      rw [hmark]
      simp [hread]

/-- The length of the longest key. -/
def keyLimit : Nat := depthLimit - 1

/-- **A key reads back**, with blanks in front of it or not. -/
theorem key?_writeKey {path : List String} (hpath : path ≠ []) (hlength : path.length ≤ keyLimit)
    (hrest : EndsKey rest) (hdot : ∀ r, skipBlanks rest ≠ '.' :: r) :
    key? (writeKey path ++ rest) = some (path, skipBlanks rest) :=
  keyParts?_writeKey hpath hlength hrest hdot

theorem key?_blank (cs : List Char) : key? (' ' :: cs) = key? cs := by
  have hskip : skipBlanks (' ' :: cs) = skipBlanks cs := rfl
  show keyParts? (78 + 1) (' ' :: cs) = keyParts? (78 + 1) cs
  rw [keyParts?, keyParts?, hskip]

/-! ## Values -/

/-- A value that can be written: its integers are those of a file, the keys of each table
differ, and at most `depth` containers stand in one another. -/
inductive Writable : Nat → Toml → Prop
  | text {depth : Nat} (s : String) : Writable depth (.text s)
  | integer {depth : Nat} {n : Int} : IsInteger n → Writable depth (.integer n)
  | bool {depth : Nat} (b : Bool) : Writable depth (.bool b)
  | array {depth : Nat} {items : List Toml} :
      (∀ v ∈ items, Writable depth v) → Writable (depth + 1) (.array items)
  | table {depth : Nat} {members : List (String × Toml)} : (members.map Prod.fst).Nodup →
      (∀ m ∈ members, Writable depth m.2) → Writable (depth + 1) (.table members)

variable {depth : Nat} {v : Toml}

theorem Writable.mono {depth' : Nat} (h : Writable depth v) (hle : depth ≤ depth') :
    Writable depth' v := by
  induction h generalizing depth' with
  | text s => exact .text s
  | integer hn => exact .integer hn
  | bool b => exact .bool b
  | array _ ih =>
    obtain ⟨d, rfl⟩ := Nat.exists_eq_succ_of_ne_zero (n := depth') (by omega)
    exact .array fun v hv => ih v hv (by omega)
  | table hkeys _ ih =>
    obtain ⟨d, rfl⟩ := Nat.exists_eq_succ_of_ne_zero (n := depth') (by omega)
    exact .table hkeys fun m hm => ih m hm (by omega)

theorem writeAllItems_eq (items : List Toml) : writeAllItems items = items.map write := by
  induction items with
  | nil => rfl
  | cons v r ih => rw [writeAllItems, ih, List.map_cons]

/-- A member of a table on one line. -/
def writeMember (m : String × Toml) : List Char := writeKeyPart m.1 ++ " = ".toList ++ m.2.write

theorem writeAllMembers_eq (members : List (String × Toml)) :
    writeAllMembers members = members.map writeMember := by
  induction members with
  | nil => rfl
  | cons m r ih => rw [writeAllMembers, ih, List.map_cons, writeMember]

theorem exists_front_writeAs (f : TextForm) (cs : List Char) :
    ∃ r, writeAs f cs = f.quote :: r := by
  unfold writeAs TextForm.delimiter
  cases f.multiline <;> exact ⟨_, rfl⟩

theorem exists_front_integer (n : Int) :
    ∃ c r, (toString n).toList = c :: r ∧ (c = '-' ∨ c.isDigit = true) := by
  have hrepr : toString n = n.repr := rfl
  rw [hrepr, Int.repr_eq_if]
  split
  · obtain ⟨d, r, hdigits, hd⟩ := (digits_toDigits n.toNat).exists_cons
    exact ⟨d, r, by rw [Nat.toList_repr, hdigits], .inr hd⟩
  · exact ⟨'-', _, String.toList_append, .inl rfl⟩

/-- What is written for a value begins with ink that does not end a list. -/
theorem Writable.exists_front (h : Writable depth v) :
    ∃ c r, v.write = c :: r ∧ isInk c = true ∧ c ≠ ']' := by
  cases h with
  | text s =>
    obtain ⟨r, hr⟩ := exists_front_writeAs (formOf s.toList) s.toList
    refine ⟨_, r, by rw [write, writeText, hr], ?_⟩
    rcases TextForm.quote_of_mem (suits_formOf s.toList).1 with hq | hq <;> rw [hq] <;> decide
  | @integer _ n _ =>
    obtain ⟨c, r, hn, hc⟩ := exists_front_integer n
    have hne {d : Char} (hd : d ≠ '-' ∧ d.isDigit = false) : c ≠ d := by
      rintro rfl
      rcases hc with hc | hc
      · exact hd.1 hc
      · rw [hd.2] at hc
        cases hc
    refine ⟨c, r, by rw [write, hn], ?_, hne (by decide)⟩
    simp [isInk, hne (d := ' ') (by decide), hne (d := '\t') (by decide),
      hne (d := '\n') (by decide), hne (d := '\r') (by decide), hne (d := '#') (by decide)]
  | bool b => cases b <;> exact ⟨_, _, rfl, rfl, by decide⟩
  | array => exact ⟨'[', _, rfl, rfl, by decide⟩
  | table => exact ⟨'\x7b', _, rfl, rfl, by decide⟩

/-! ## Arrays -/

/-- A reader that gives a value back from what was written for it. -/
def ReadsBack (item? : List Char → Option (Toml × List Char)) (v : Toml) : Prop :=
  ∀ rest, Ends rest → item? (v.write ++ rest) = some (v, rest)

/-- An item of an array that has more of them. -/
def writeLine (v : Toml) : List Char := "\n    ".toList ++ v.write ++ [',']

section Items

variable {item? : List Char → Option (Toml × List Char)} {fuel : Nat}

theorem items?_close (front : List Char)
    (hfront : skipBetween (front ++ ']' :: rest) = ']' :: rest) :
    items? item? (fuel + 1) (front ++ ']' :: rest) = some ([], rest) := by
  rw [items?, hfront]
  rfl

/-- An item is read where the reader finds it. Behind a comma there may be more of them. -/
theorem items?_item (hv : Writable depth v) (hread : ReadsBack item? v) {front : List Char}
    (hfront : skipBetween (front ++ (v.write ++ ',' :: rest)) = v.write ++ ',' :: rest) :
    items? item? (fuel + 1) (front ++ (v.write ++ ',' :: rest)) =
      (items? item? fuel rest).map fun (vs, rest) => (v :: vs, rest) := by
  obtain ⟨c, r, hwritten, -, hclose⟩ := hv.exists_front
  have hitem := hread (',' :: rest) (ends_cons rfl rest)
  rw [items?, hfront]
  split
  · rename_i heq
    rw [hwritten] at heq
    exact absurd (List.cons.inj heq).1 hclose
  · simp [hitem, skipBetween_ink (c := ',') rfl]

/-- An item that the end of the array follows is the last. -/
theorem items?_last (hv : Writable depth v) (hread : ReadsBack item? v) :
    items? item? (fuel + 1) (v.write ++ ']' :: rest) = some ([v], rest) := by
  obtain ⟨c, r, hwritten, hink, hclose⟩ := hv.exists_front
  have hitem := hread (']' :: rest) (ends_cons rfl rest)
  have hfront : skipBetween (v.write ++ ']' :: rest) = v.write ++ ']' :: rest := by
    rw [hwritten]
    exact skipBetween_ink hink
  rw [items?, hfront]
  split
  · rename_i heq
    rw [hwritten] at heq
    exact absurd (List.cons.inj heq).1 hclose
  · simp [hitem, skipBetween_ink (c := ']') rfl]

/-- An array with a line for each item reads back. -/
theorem items?_lines {items : List Toml}
    (hitems : ∀ v ∈ items, Writable depth v ∧ ReadsBack item? v)
    (hfuel : items.length < fuel) :
    items? item? fuel (items.flatMap writeLine ++ '\n' :: ']' :: rest) = some (items, rest) := by
  induction items generalizing fuel with
  | nil =>
    obtain ⟨fuel, rfl⟩ := Nat.exists_eq_succ_of_ne_zero (Nat.ne_zero_of_lt hfuel)
    exact items?_close ['\n'] (skipBetween_line [] nofun rfl)
  | cons v vs ih =>
    obtain ⟨fuel, rfl⟩ := Nat.exists_eq_succ_of_ne_zero (Nat.ne_zero_of_lt hfuel)
    obtain ⟨hv, hread⟩ := hitems v List.mem_cons_self
    obtain ⟨c, r, hwritten, hink, -⟩ := hv.exists_front
    have hfront : skipBetween ("\n    ".toList ++
        (v.write ++ ',' :: (vs.flatMap writeLine ++ '\n' :: ']' :: rest))) =
        v.write ++ ',' :: (vs.flatMap writeLine ++ '\n' :: ']' :: rest) := by
      rw [hwritten]
      exact skipBetween_line "    ".toList (by simp [isBlankChar]) hink
    have hmore := ih (fun u hu => hitems u (List.mem_cons_of_mem v hu)) (by simpa using hfuel)
    have hitem : items? item? (fuel + 1) _ = _ := items?_item hv hread hfront
    rw [hmore] at hitem
    have hline : (v :: vs).flatMap writeLine ++ '\n' :: ']' :: rest = "\n    ".toList ++
        (v.write ++ ',' :: (vs.flatMap writeLine ++ '\n' :: ']' :: rest)) := by
      simp only [List.flatMap_cons, writeLine, List.append_assoc, List.cons_append, List.nil_append]
    rw [hline]
    exact hitem

theorem writeItems_map (u v : Toml) (vs : List Toml) :
    writeItems ((u :: v :: vs).map write) = (u :: v :: vs).flatMap writeLine ++ ['\n'] := by
  show ((u :: v :: vs).map write).flatMap (fun item => "\n    ".toList ++ item ++ [',']) ++
    ['\n'] = _
  rw [List.flatMap_map]
  rfl

theorem items?_written {items : List Toml}
    (hitems : ∀ v ∈ items, Writable depth v ∧ ReadsBack item? v)
    (hfuel : items.length < fuel) :
    items? item? fuel (writeItems (items.map write) ++ ']' :: rest) = some (items, rest) := by
  match items with
  | [] =>
    obtain ⟨fuel, rfl⟩ := Nat.exists_eq_succ_of_ne_zero (Nat.ne_zero_of_lt hfuel)
    exact items?_close [] (skipBetween_ink rfl)
  | [v] =>
    obtain ⟨fuel, rfl⟩ := Nat.exists_eq_succ_of_ne_zero (Nat.ne_zero_of_lt hfuel)
    obtain ⟨hv, hread⟩ := hitems v List.mem_cons_self
    exact items?_last hv hread
  | u :: v :: vs =>
    rw [writeItems_map, List.append_assoc]
    exact items?_lines hitems hfuel

end Items

/-! ## Tables between braces -/

section Members

variable {item? : List Char → Option (Toml × List Char)} {fuel : Nat}

/-- A key with its value reads back, and the blanks behind the value are passed over. -/
theorem assignment?_written {path : List String} (hpath : path ≠ [])
    (hlength : path.length ≤ keyLimit) (hv : Writable depth v) (hread : ReadsBack item? v)
    (hrest : Ends rest) :
    assignment? item? (writeKey path ++ (" = ".toList ++ (v.write ++ rest))) =
      some ((path, v), skipBlanks rest) := by
  obtain ⟨c, r, hwritten, hink, -⟩ := hv.exists_front
  have hends : EndsKey (" = ".toList ++ (v.write ++ rest)) := endsKey_cons rfl _
  have hequals : skipBlanks (" = ".toList ++ (v.write ++ rest)) =
      '=' :: ' ' :: (v.write ++ rest) := rfl
  have hdot : ∀ r, skipBlanks (" = ".toList ++ (v.write ++ rest)) ≠ '.' :: r := fun r heq => by
    rw [hequals] at heq
    cases (List.cons.inj heq).1
  have hkey := key?_writeKey hpath hlength hends hdot
  have hvalue : skipBlanks (' ' :: (v.write ++ rest)) = v.write ++ rest := by
    rw [hwritten]
    exact skipBlanks_append [' '] (by simp [isBlankChar]) (isBlankChar_of_isInk hink)
  rw [assignment?, hkey, hequals]
  simp [hvalue, hread rest hrest]

theorem assignment?_blank (cs : List Char) :
    assignment? item? (' ' :: cs) = assignment? item? cs := by
  rw [assignment?, assignment?, key?_blank]

/-- A member reads back with what stands behind it. -/
theorem assignment?_member {m : String × Toml} (hm : Writable depth m.2)
    (hread : ReadsBack item? m.2) (hrest : Ends rest) :
    assignment? item? (' ' :: (writeMember m ++ rest)) = some (([m.1], m.2), skipBlanks rest) := by
  have hkey : writeKey [m.1] = writeKeyPart m.1 := by simp [writeKey]
  have hassign := assignment?_written (List.cons_ne_nil m.1 [])
    (by rw [List.length_singleton]; decide) hm hread hrest
  rw [hkey] at hassign
  rw [assignment?_blank, writeMember, List.append_assoc, List.append_assoc]
  exact hassign

/-- Members on one line read back up to the brace that closes them. -/
theorem members?_written {members : List (String × Toml)} (hne : members ≠ [])
    (hmembers : ∀ m ∈ members, Writable depth m.2 ∧ ReadsBack item? m.2)
    (hfuel : members.length ≤ fuel) :
    members? item? fuel
        (' ' :: (", ".toList.intercalate (members.map writeMember) ++ ' ' :: '\x7d' :: rest)) =
      some (members.map fun m => ([m.1], m.2), rest) := by
  induction members generalizing fuel with
  | nil => exact absurd rfl hne
  | cons m ms ih =>
    obtain ⟨fuel, rfl⟩ := Nat.exists_eq_succ_of_ne_zero (n := fuel) (by simp at hfuel; omega)
    obtain ⟨hm, hread⟩ := hmembers m List.mem_cons_self
    rcases eq_or_ne ms [] with rfl | hms
    · have hends : Ends (' ' :: '\x7d' :: rest) := ends_cons rfl _
      have hskip : skipBlanks (' ' :: '\x7d' :: rest) = '\x7d' :: rest := rfl
      have hassign := assignment?_member hm hread hends
      rw [hskip] at hassign
      have hwritten : ", ".toList.intercalate ([m].map writeMember) = writeMember m := by
        simp [List.intercalate]
      rw [hwritten, members?, hassign]
      rfl
    · obtain ⟨m', ms', rfl⟩ := List.exists_cons_of_ne_nil hms
      have hmore := ih hms (fun u hu => hmembers u (List.mem_cons_of_mem m hu))
        (by simpa using hfuel)
      have hwritten : ", ".toList.intercalate ((m :: m' :: ms').map writeMember) =
          writeMember m ++
            (", ".toList ++ ", ".toList.intercalate ((m' :: ms').map writeMember)) := by
        rw [List.map_cons, List.map_cons, List.intercalate_cons_cons, List.append_assoc,
          ← List.map_cons]
      have hends : Ends (", ".toList ++ (", ".toList.intercalate ((m' :: ms').map writeMember) ++
          ' ' :: '\x7d' :: rest)) := ends_cons rfl _
      have hassign := assignment?_member hm hread hends
      rw [hwritten, List.append_assoc, List.append_assoc, members?, hassign]
      have hskip (cs : List Char) : skipBlanks (", ".toList ++ cs) = ',' :: ' ' :: cs := rfl
      simp only [hskip, hmore]
      rfl

end Members

/-! ## All values -/

theorem length_le_flatMap {α β : Type} {g : α → List β} {as : List α} (h : ∀ a ∈ as, g a ≠ []) :
    as.length ≤ (as.flatMap g).length := by
  induction as with
  | nil => exact Nat.zero_le _
  | cons a as ih =>
    have ha := List.length_pos_iff.2 (h a List.mem_cons_self)
    have has := ih fun b hb => h b (List.mem_cons_of_mem a hb)
    rw [List.flatMap_cons, List.length_append, List.length_cons]
    omega

theorem Writable.write_ne_nil (h : Writable depth v) : v.write ≠ [] := by
  obtain ⟨c, r, hwritten, -⟩ := h.exists_front
  rw [hwritten]
  exact List.cons_ne_nil c r

theorem writeMember_ne_nil (m : String × Toml) : writeMember m ≠ [] := by
  obtain ⟨c, r, hwritten, -⟩ := exists_front_writeKeyPart m.1
  rw [writeMember, hwritten]
  exact List.cons_ne_nil c _

theorem exists_intercalate_cons {β : Type} (sep l : List β) (ls : List (List β)) :
    ∃ more, sep.intercalate (l :: ls) = l ++ more := by
  cases ls with
  | nil => exact ⟨[], by simp [List.intercalate]⟩
  | cons l' ls => exact ⟨_, by rw [List.intercalate_cons_cons, List.append_assoc]⟩

theorem length_le_intercalate {α β : Type} (sep : List β) {g : α → List β}
    (h : ∀ a, g a ≠ []) (as : List α) : as.length ≤ (sep.intercalate (as.map g)).length := by
  induction as with
  | nil => exact Nat.zero_le _
  | cons a as ih =>
    have ha := List.length_pos_iff.2 (h a)
    cases as with
    | nil =>
      have hone : sep.intercalate [g a] = g a := by simp [List.intercalate]
      rw [List.map_cons, List.map_nil, hone]
      exact ha
    | cons b as =>
      rw [List.map_cons, List.map_cons, List.intercalate_cons_cons, List.length_append,
        List.length_append, ← List.map_cons, List.length_cons]
      omega

/-- The reader has a step for each item. -/
theorem length_writeItems_le {items : List Toml} (hitems : ∀ v ∈ items, Writable depth v) :
    items.length ≤ (writeItems (items.map write)).length := by
  have hflat := length_le_flatMap fun v hv => (hitems v hv).write_ne_nil
  match items with
  | [] => exact Nat.zero_le _
  | [v] => simpa [writeItems] using hflat
  | u :: v :: vs =>
    have hlines : (u :: v :: vs).length ≤ ((u :: v :: vs).flatMap writeLine).length :=
      length_le_flatMap fun w _ => by simp [writeLine]
    rw [writeItems_map]
    simp only [List.length_append]
    omega

theorem value?_array (cs : List Char) : value? (depth + 1) ('[' :: cs) =
    (items? (value? depth) (cs.length + 1) cs).map fun (vs, rest) => (.array vs, rest) := by
  rw [value?]

theorem value?_table (cs : List Char) :
    value? (depth + 1) ('\x7b' :: cs) = braced? (value? depth) cs := by
  rw [value?]

theorem value?_text {q : Char} (hq : q = '"' ∨ q = '\'') (cs : List Char) :
    value? depth (q :: cs) = (text? (q :: cs)).map fun (s, rest) => (.text s, rest) := by
  rcases hq with rfl | rfl <;> cases depth <;> rfl

theorem value?_number (hc : c = '-' ∨ c.isDigit = true) (cs : List Char) :
    value? depth (c :: cs) = number? (c :: cs) := by
  have hne {d : Char} (hd : d ≠ '-' ∧ d.isDigit = false) (r : List Char) : c :: cs ≠ d :: r := by
    intro heq
    have hcd : c = d := (List.cons.inj heq).1
    rw [hcd, hd.2] at hc
    exact hc.elim hd.1 nofun
  exact value?.eq_9 depth _ (hne (by decide)) (hne (by decide)) (hne (by decide)) (hne (by decide))
    (hne (by decide)) (hne (by decide))

theorem afterWord?_append (word : String) (cs : List Char) :
    afterWord? word (word.toList ++ cs) = some cs := by
  have hpre : word.toList.isPrefixOf (word.toList ++ cs) = true :=
    List.isPrefixOf_iff_prefix.2 (List.prefix_append _ _)
  rw [afterWord?, if_pos hpre, ← String.length_toList, List.drop_left]

theorem value?_bool (b : Bool) : value? depth ((bool b).write ++ rest) = some (.bool b, rest) := by
  cases b with
  | false =>
    have hword := afterWord?_append "alse" rest
    have hread : value? depth ('f' :: ("alse".toList ++ rest)) =
        (afterWord? "alse" ("alse".toList ++ rest)).map fun rest => (.bool false, rest) := by
      rw [value?]
    rw [hword] at hread
    exact hread
  | true =>
    have hword := afterWord?_append "rue" rest
    have hread : value? depth ('t' :: ("rue".toList ++ rest)) =
        (afterWord? "rue" ("rue".toList ++ rest)).map fun rest => (.bool true, rest) := by
      rw [value?]
    rw [hword] at hread
    exact hread

/-- What stands between braces reads back as the table that its members add up to. -/
theorem braced?_written {item? : List Char → Option (Toml × List Char)}
    {members : List (String × Toml)} (hne : members ≠ []) (hkeys : (members.map Prod.fst).Nodup)
    (hmembers : ∀ m ∈ members, Writable depth m.2 ∧ ReadsBack item? m.2) :
    braced? item?
        (' ' :: (", ".toList.intercalate (members.map writeMember) ++ ' ' :: '\x7d' :: rest)) =
      some (.table members, rest) := by
  obtain ⟨m, ms, rfl⟩ := List.exists_cons_of_ne_nil hne
  have hlength := length_le_intercalate ", ".toList writeMember_ne_nil (m :: ms)
  have hfront : ∃ c r, ", ".toList.intercalate ((m :: ms).map writeMember) = c :: r ∧
      isKeyFront c = true := by
    obtain ⟨c, r, hwritten, hc⟩ := exists_front_writeKeyPart m.1
    obtain ⟨more, hmore⟩ := exists_intercalate_cons ", ".toList (writeMember m) (ms.map writeMember)
    refine ⟨c, r ++ " = ".toList ++ m.2.write ++ more, ?_, hc⟩
    rw [List.map_cons, hmore, writeMember, hwritten]
    rfl
  obtain ⟨c, r, hfront, hc⟩ := hfront
  have hskip : skipBlanks (' ' :: (", ".toList.intercalate ((m :: ms).map writeMember) ++
      ' ' :: '\x7d' :: rest)) = c :: (r ++ ' ' :: '\x7d' :: rest) := by
    rw [hfront]
    exact skipBlanks_append [' '] (by simp [isBlankChar])
      (isBlankChar_of_isInk (isInk_of_isKeyFront hc))
  have hfuel : (m :: ms).length ≤ (' ' :: (", ".toList.intercalate ((m :: ms).map writeMember) ++
      ' ' :: '\x7d' :: rest)).length + 1 := by
    rw [List.length_cons (a := ' '), List.length_append]
    omega
  unfold braced?
  rw [hskip]
  split
  · rename_i heq
    exact absurd (List.cons.inj heq).1 (isKeyFront_ne hc rfl)
  · simp only [members?_written hne hmembers hfuel, ofAssignments?_eq hkeys]
    rfl

/-- **A value reads back from what was written for it**, and what ends it is left. -/
theorem value?_write (h : Writable depth v) : ReadsBack (value? depth) v := by
  induction h with
  | text s =>
    intro rest hrest
    have hread := text?_writeText s hrest
    obtain ⟨r, hr⟩ := exists_front_writeAs (formOf s.toList) s.toList
    have hquote := TextForm.quote_of_mem (suits_formOf s.toList).1
    rw [write]
    rw [writeText, hr, List.cons_append] at hread ⊢
    rw [value?_text hquote, hread]
    rfl
  | @integer _ n hn =>
    intro rest hrest
    have hread := number?_integer hn hrest
    obtain ⟨c, r, hwritten, hc⟩ := exists_front_integer n
    rw [write]
    rw [hwritten, List.cons_append] at hread ⊢
    rw [value?_number hc, hread]
  | bool b =>
    intro rest hrest
    exact value?_bool b
  | @array depth items hitems ih =>
    intro rest hrest
    have hlength := length_writeItems_le hitems
    have hfuel : items.length < (writeItems (items.map write) ++ ']' :: rest).length + 1 := by
      rw [List.length_append]
      omega
    have hwritten : (array items).write ++ rest =
        '[' :: (writeItems (items.map write) ++ ']' :: rest) := by
      simp [write, writeAllItems_eq]
    rw [hwritten, value?_array, items?_written (fun v hv => ⟨hitems v hv, ih v hv⟩) hfuel]
    rfl
  | @table depth members hkeys hmembers ih =>
    intro rest hrest
    rcases eq_or_ne members [] with rfl | hne
    · exact value?_table _
    have hwritten : (table members).write ++ rest = '\x7b' :: ' ' ::
        (", ".toList.intercalate (members.map writeMember) ++ ' ' :: '\x7d' :: rest) := by
      obtain ⟨m, ms, rfl⟩ := List.exists_cons_of_ne_nil hne
      rw [write, writeAllMembers_eq, List.map_cons, writeMembers.eq_2 _ (List.cons_ne_nil _ _)]
      simp
    rw [hwritten, value?_table,
      braced?_written hne hkeys fun m hm => ⟨hmembers m hm, ih m hm⟩]

end Toml

end Onboarding
