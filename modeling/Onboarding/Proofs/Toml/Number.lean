import Mathlib.Data.Nat.Basic
import Mathlib.Tactic.IntervalCases
import Onboarding.Proofs.Toml.Text
import Onboarding.Toml.Number
/-!
# TOML integers — a number reads back from its digits

A value that starts with a digit or a sign may be a date, a time, a number with a fraction
or an integer, and is tried in this order. The digits of an integer are taken for none of
the others where what stands behind them ends a value, and their value is the integer
(`number?_integer`).
-/

namespace Onboarding

namespace Toml

variable {ds rest : List Char} {n : Nat}

/-- What ends a value is in no class of characters that has none of the five. -/
theorem Ends.stop (h : Ends rest) {p : Char → Bool}
    (hp : p '\n' = false ∧ p ',' = false ∧ p ']' = false ∧ p ' ' = false ∧ p '\x7d' = false) :
    ∀ c ∈ rest.head?, p c = false := by
  obtain ⟨h1, h2, h3, h4, h5⟩ := hp
  intro c hc
  have hend := h c hc
  simp only [isEnd, Bool.or_eq_true, decide_eq_true_eq] at hend
  rcases hend with (((rfl | rfl) | rfl) | rfl) | rfl <;> assumption

/-- What ends a value begins with no other character. -/
theorem Ends.ne_cons (h : Ends rest) {c : Char} (hc : isEnd c = false) (r : List Char) :
    rest ≠ c :: r := by
  rintro rfl
  exact Bool.eq_false_iff.1 hc (h c rfl)

/-! ## The digits of a number -/

/-- How an integer is written: digits, and no zero in front of others. -/
structure Digits (ds : List Char) : Prop where
  ne_nil : ds ≠ []
  isDigit : ∀ c ∈ ds, c.isDigit = true
  whole : ds.head? = some '0' → ds.length = 1

theorem head?_toDigits_ne (hn : n ≠ 0) : (Nat.toDigits 10 n).head? ≠ some '0' := by
  induction n using Nat.strongRecOn with
  | ind n ih =>
    rcases Nat.lt_or_ge n 10 with hlt | hge
    · rw [Nat.toDigits_of_lt_base hlt]
      interval_cases n <;> simp_all [Nat.digitChar]
    · have hless : n / 10 < n := Nat.div_lt_self (by omega) (by omega)
      have hfront := ih (n / 10) hless (by omega)
      rw [Nat.toDigits_of_base_le (by omega) hge, List.head?_append]
      obtain ⟨d, r, hdigits⟩ :=
        List.exists_cons_of_ne_nil (Nat.toDigits_ne_nil (n := n / 10) (b := 10))
      rw [hdigits] at hfront ⊢
      exact hfront

theorem digits_toDigits (n : Nat) : Digits (Nat.toDigits 10 n) where
  ne_nil := Nat.toDigits_ne_nil
  isDigit _ hc := Nat.isDigit_of_mem_toDigits (by omega) (by omega) hc
  whole h := by
    rcases Nat.eq_zero_or_pos n with rfl | hpos
    · rfl
    · exact absurd h (head?_toDigits_ne (by omega))

theorem digitsValue_toDigits (n : Nat) : digitsValue (Nat.toDigits 10 n) = n :=
  Nat.ofDigitChars_toDigits (by omega) (by omega)

namespace Digits

theorem exists_cons (h : Digits ds) : ∃ d r, ds = d :: r ∧ d.isDigit = true := by
  obtain ⟨d, r, rfl⟩ := List.exists_cons_of_ne_nil h.ne_nil
  exact ⟨d, r, rfl, h.isDigit d List.mem_cons_self⟩

theorem head_ne (h : Digits ds) {c : Char} (hc : c.isDigit = false) (r : List Char) :
    ds ++ rest ≠ c :: r := by
  obtain ⟨d, ds', rfl, hd⟩ := h.exists_cons
  intro heq
  have hdc : d = c := (List.cons.inj heq).1
  rw [hdc, hc] at hd
  cases hd

theorem sign_eq (h : Digits ds) : sign (ds ++ rest) = (false, ds ++ rest) := by
  unfold sign
  split
  · rename_i heq
    exact absurd heq (h.head_ne (by decide) _)
  · rename_i heq
    exact absurd heq (h.head_ne (by decide) _)
  · rfl

theorem marksBetween_eq (before : Bool) (h : ∀ c ∈ ds, c.isDigit = true) :
    marksBetween before ds = (before || !ds.isEmpty) := by
  induction ds generalizing before with
  | nil => simp [marksBetween]
  | cons d r ih =>
    have hd : d.isDigit = true := h d List.mem_cons_self
    have hne : d ≠ '_' := by
      rintro rfl
      cases hd
    have hr := ih true fun c hc => h c (List.mem_cons_of_mem d hc)
    rw [marksBetween.eq_3 before d r hne, hr]
    simp

theorem digits?_eq (h : Digits ds) (hrest : Ends rest) :
    digits? Char.isDigit (ds ++ rest) = some (ds, rest) := by
  have hrun : ∀ c ∈ ds, isDigitOrMark Char.isDigit c = true := fun c hc => by
    simp [isDigitOrMark, h.isDigit c hc]
  have hstop : ∀ c ∈ rest.head?, isDigitOrMark Char.isDigit c = false := hrest.stop (by decide)
  have hmarks : marksBetween false ds = true := by
    rw [marksBetween_eq false h.isDigit]
    simp [h.ne_nil]
  have hfilter : ds.filter (· ≠ '_') = ds := by
    refine List.filter_eq_self.2 fun c hc => ?_
    have hd := h.isDigit c hc
    have hne : c ≠ '_' := by
      rintro rfl
      cases hd
    simp [hne]
  unfold digits?
  rw [takeWhile_append_stop hrun hstop, dropWhile_append_stop hrun hstop]
  rw [if_pos hmarks, hfilter]

theorem wholeDigits?_eq (h : Digits ds) (hrest : Ends rest) :
    wholeDigits? (ds ++ rest) = some (ds, rest) := by
  unfold wholeDigits?
  rw [h.digits?_eq hrest]
  have hwhole : ¬ ((ds.head? == some '0' && decide (1 < ds.length)) = true) := by
    simp only [Bool.and_eq_true, beq_iff_eq, decide_eq_true_eq, not_and]
    intro hzero
    have := h.whole hzero
    omega
  exact if_neg hwhole

/-! ## No date and no fraction -/

/-- Where so many digits are read, that many stand there, and behind them more digits or what
ends the value. -/
theorem drop_of_fixed? (h : ∀ c ∈ ds, c.isDigit = true) (hrest : Ends rest) {k v : Nat}
    {cs : List Char} (hfixed : fixed? k (ds ++ rest) = some (v, cs)) {c : Char}
    (hc : c.isDigit = false ∧ isEnd c = false) (r : List Char) : cs ≠ c :: r := by
  unfold fixed? at hfixed
  simp only [Bool.and_eq_true, decide_eq_true_eq, Option.ite_none_right_eq_some, Option.some.injEq,
    Prod.mk.injEq] at hfixed
  obtain ⟨⟨hlength, hall⟩, -, rfl⟩ := hfixed
  rw [List.all_eq_true] at hall
  rw [List.length_take, List.length_append] at hlength
  have hk : k ≤ ds.length := by
    by_contra hgt
    -- one of the digits would be what ends the value
    cases rest with
    | nil =>
      rw [List.length_nil] at hlength
      omega
    | cons e r' =>
      have hmem : e ∈ (ds ++ e :: r').take k := by
        obtain ⟨j, rfl⟩ : ∃ j, k = ds.length + (j + 1) := ⟨k - ds.length - 1, by omega⟩
        rw [List.take_length_add_append]
        simp
      have hdigit := hall e hmem
      have hno := hrest.stop (p := Char.isDigit) (by decide) e rfl
      rw [hdigit] at hno
      cases hno
  rw [List.drop_append_of_le_length hk]
  cases hds : ds.drop k with
  | nil => exact hrest.ne_cons hc.2 r
  | cons d ds' =>
    intro heq
    have hd : d ∈ ds := List.mem_of_mem_drop (i := k) (by rw [hds]; exact List.mem_cons_self)
    have hdigit := h d hd
    rw [(List.cons.inj heq).1, hc.1] at hdigit
    cases hdigit

end Digits

theorem afterWord?_eq_none (word : String) {c : Char} (hword : word.toList = [c])
    {cs : List Char} (h : ∀ r, cs ≠ c :: r) : afterWord? word cs = none := by
  unfold afterWord?
  rw [hword, if_neg]
  intro hpre
  obtain ⟨r, rfl⟩ := List.isPrefixOf_iff_prefix.1 hpre
  exact h r rfl

theorem afterDate?_eq_none (h : ∀ c ∈ ds, c.isDigit = true) (hrest : Ends rest) :
    afterDate? (ds ++ rest) = none := by
  unfold afterDate?
  cases hyear : fixed? 4 (ds ++ rest) with
  | none => rfl
  | some out =>
    have hdash := Digits.drop_of_fixed? (c := '-') h hrest hyear (by decide)
    simp [afterWord?_eq_none "-" rfl hdash]

theorem afterTime?_eq_none (h : ∀ c ∈ ds, c.isDigit = true) (hrest : Ends rest) :
    afterTime? (ds ++ rest) = none := by
  unfold afterTime? within?
  cases hhours : fixed? 2 (ds ++ rest) with
  | none => rfl
  | some out =>
    have hcolon := Digits.drop_of_fixed? (c := ':') h hrest hhours (by decide)
    simp [Option.filter, afterWord?_eq_none ":" rfl hcolon]

theorem fixed?_minus (k : Nat) (cs : List Char) : fixed? (k + 1) ('-' :: cs) = none := by
  simp [fixed?]

/-- An integer is no date and no time. -/
theorem afterMoment?_digits (h : Digits ds) (hrest : Ends rest) :
    afterMoment? (ds ++ rest) = none := by
  unfold afterMoment?
  rw [afterDate?_eq_none h.isDigit hrest]
  exact afterTime?_eq_none h.isDigit hrest

theorem afterMoment?_minus (cs : List Char) : afterMoment? ('-' :: cs) = none := by
  simp [afterMoment?, afterDate?, afterTime?, within?, fixed?_minus]

theorem fraction?_eq_none (hrest : Ends rest) : fraction? rest = none :=
  fraction?.eq_2 rest fun r h => hrest.ne_cons (by decide) r h

theorem exponent?_eq_none (hrest : Ends rest) : exponent? rest = none := by
  cases rest with
  | nil => rfl
  | cons c r =>
    have hc : (decide (c = 'e') || decide (c = 'E')) = false :=
      hrest.stop (p := fun c => decide (c = 'e') || decide (c = 'E')) (by decide) c rfl
    simp [exponent?, hc]

/-- Neither is it a number with a fraction or an exponent. -/
theorem afterDecimal?_eq_none (h : Digits ds) (hrest : Ends rest) {cs : List Char} {negative : Bool}
    (hsign : sign cs = (negative, ds ++ rest)) : afterDecimal? cs = none := by
  simp [afterDecimal?, hsign, h.wholeDigits?_eq hrest, fraction?_eq_none hrest,
    exponent?_eq_none hrest]

theorem afterWord?_digits (h : Digits ds) (word : String) {c : Char} (hc : c.isDigit = false)
    {r : List Char} (hword : word.toList = c :: r) : afterWord? word (ds ++ rest) = none := by
  obtain ⟨d, ds', rfl, hd⟩ := h.exists_cons
  have hne : ¬ c = d := by
    rintro rfl
    rw [hc] at hd
    cases hd
  simp [afterWord?, hword, List.isPrefixOf, hne]

theorem afterFloat?_eq_none (h : Digits ds) (hrest : Ends rest) {cs : List Char} {negative : Bool}
    (hsign : sign cs = (negative, ds ++ rest)) : afterFloat? cs = none := by
  simp [afterFloat?, afterDecimal?_eq_none h hrest hsign, hsign,
    afterWord?_digits h "inf" (c := 'i') rfl rfl,
    afterWord?_digits h "nan" (c := 'n') rfl rfl]

/-! ## Integers -/

/-- A marked base needs a letter behind the zero. -/
theorem Digits.ne_marked (h : Digits ds) (hrest : Ends rest) {c : Char}
    (hc : c.isDigit = false ∧ isEnd c = false) (r : List Char) : ds ++ rest ≠ '0' :: c :: r := by
  obtain ⟨d, ds', rfl, hd⟩ := h.exists_cons
  intro heq
  have htail : ds' ++ rest = c :: r := (List.cons.inj heq).2
  cases ds' with
  | nil => exact hrest.ne_cons hc.2 r htail
  | cons e ds'' =>
    have he : e.isDigit = true := h.isDigit e (by simp)
    rw [(List.cons.inj htail).1, hc.1] at he
    cases he

theorem integer?_digits (h : Digits ds) (hrest : Ends rest) (hn : digitsValue ds < integerLimit) :
    integer? (ds ++ rest) = some ((digitsValue ds : Int), rest) := by
  rw [integer?.eq_4 _ (h.ne_marked hrest (by decide)) (h.ne_marked hrest (by decide))
    (h.ne_marked hrest (by decide))]
  simp [h.sign_eq, h.wholeDigits?_eq hrest, hn]

theorem integer?_minus (h : Digits ds) (hrest : Ends rest) (hn : digitsValue ds ≤ integerLimit) :
    integer? ('-' :: (ds ++ rest)) = some (-(digitsValue ds : Int), rest) := by
  have hne : ∀ c r, '-' :: (ds ++ rest) ≠ '0' :: c :: r := fun c r heq => by
    cases (List.cons.inj heq).1
  rw [integer?.eq_4 _ (hne 'x') (hne 'o') (hne 'b')]
  simp [sign, h.wholeDigits?_eq hrest, hn]

/-- An integer that a file can hold. -/
def IsInteger (n : Int) : Prop := -(integerLimit : Int) ≤ n ∧ n < integerLimit

/-- **An integer reads back from its digits.** -/
theorem number?_integer {n : Int} (hn : IsInteger n) (hrest : Ends rest) :
    number? ((toString n).toList ++ rest) = some (.integer n, rest) := by
  obtain ⟨hlow, hhigh⟩ := hn
  have hdigits := digits_toDigits n.natAbs
  have hvalue := digitsValue_toDigits n.natAbs
  have hrepr : toString n = n.repr := rfl
  by_cases hsign : 0 ≤ n
  · have hwritten : (toString n).toList = Nat.toDigits 10 n.natAbs := by
      have habs : n.toNat = n.natAbs := by omega
      rw [hrepr, Int.repr_eq_if, if_pos hsign, Nat.toList_repr, habs]
    have hread := integer?_digits hdigits hrest (by omega)
    have hn : ((n.natAbs : Nat) : Int) = n := by omega
    rw [hvalue, hn] at hread
    rw [hwritten, number?, afterMoment?_digits hdigits hrest]
    simp [afterFloat?_eq_none hdigits hrest hdigits.sign_eq, hread]
  · have hwritten : (toString n).toList = '-' :: Nat.toDigits 10 n.natAbs := by
      have habs : (-n).toNat = n.natAbs := by omega
      rw [hrepr, Int.repr_eq_if, if_neg hsign, String.toList_append, Nat.toList_repr, habs]
      rfl
    have hread := integer?_minus hdigits hrest (by omega)
    have hn : -((n.natAbs : Nat) : Int) = n := by omega
    rw [hvalue, hn] at hread
    have hminus : sign ('-' :: (Nat.toDigits 10 n.natAbs ++ rest)) =
        (true, Nat.toDigits 10 n.natAbs ++ rest) := rfl
    rw [hwritten, List.cons_append, number?, afterMoment?_minus]
    simp [afterFloat?_eq_none hdigits hrest hminus, hread]

end Toml

end Onboarding
