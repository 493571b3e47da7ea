import Mathlib.Data.List.Infix
import Onboarding.Mail.Message
import Onboarding.Proofs.Owner
/-!
# Rendering — a template is filled in as in one pass

A template is rendered by two replacements, and the second one searches what the first one
left. A short code could stand between two halves of `emailPlace`, and a code with a brace
could bring one along. A code that is drawn does neither: its digits are no braces, and there
are more of them than characters between the braces of a place. So a place of an email is
found after the first replacement where it was before (`emailPlace_prefix_fill`), and a text
is rendered as `pieces` cuts it up, in a single pass from the left.
-/

namespace Onboarding

/-! ## Codes -/

/-- What a code looks like that is mailed. -/
structure IsCode (code : String) : Prop where
  length_eq : code.toList.length = 32
  digits : ∀ c ∈ code.toList, Owner.isHexDigit c = true

/-- **What is drawn to be mailed is a code.** -/
theorem Randomness.isCode_of_verificationCode {g g' : Randomness} {code : String}
    (h : g.verificationCode = (.ok code, g')) : IsCode code := by
  unfold verificationCode drawCode at h
  split at h
  · rename_i bytes _ hdraw
    cases h
    have hlength := length_draw hdraw
    refine ⟨?_, Hex.isHexDigit_encode bytes⟩
    rw [Hex.length_encode, hlength]
    rfl
  · cases h

namespace IsCode

variable {code : String}

theorem not_mem (h : IsCode code) {c : Char} (hc : Owner.isHexDigit c = false) :
    c ∉ code.toList := fun hmem => by
  rw [h.digits c hmem] at hc
  cases hc

end IsCode

namespace MailTemplates

/-! ## One replacement -/

section Filling

variable {place value cs : List Char}

theorem fillFrom_eq (place value : List Char) (n : Nat) (cs : List Char) :
    fillFrom place value n cs = fill place value (cs.drop n) := by
  unfold fill
  induction cs generalizing n with
  | nil =>
    rw [List.drop_nil]
    cases n <;> rfl
  | cons c r ih =>
    cases n with
    | zero => rfl
    | succ n => exact ih n

/-- A place is replaced. -/
theorem fill_place (h : place ≠ []) (value cs : List Char) :
    fill place value (place ++ cs) = value ++ fill place value cs := by
  obtain ⟨c, r, rfl⟩ := List.exists_cons_of_ne_nil h
  have hstarts : (c :: r).isPrefixOf (c :: (r ++ cs)) = true := by
    rw [List.isPrefixOf_iff_prefix]
    exact List.prefix_append (c :: r) cs
  unfold fill
  rw [List.cons_append, fillFrom, if_pos hstarts, fillFrom_eq, List.length_cons,
    Nat.add_sub_cancel, List.drop_left]
  rfl

/-- Where no place is, a character stays. -/
theorem fill_cons {c : Char} (h : ¬ place <+: c :: cs) :
    fill place value (c :: cs) = c :: fill place value cs := by
  unfold fill
  rw [fillFrom, if_neg fun hstarts => h (List.isPrefixOf_iff_prefix.1 hstarts)]

variable {name : List Char}

/-- What holds no opening brace holds no place. -/
theorem fill_append_of_not_mem {front : List Char} (h : '\x7b' ∉ front) :
    fill ('\x7b' :: name) value (front ++ cs) = front ++ fill ('\x7b' :: name) value cs := by
  induction front with
  | nil => rfl
  | cons c front ih =>
    obtain ⟨hc, hfront⟩ := List.ne_and_not_mem_of_not_mem_cons h
    have hplace : ¬ '\x7b' :: name <+: c :: (front ++ cs) := fun hstarts =>
      hc (List.cons_prefix_cons.1 hstarts).1
    rw [List.cons_append, fill_cons hplace, ih hfront, List.cons_append]

/-- What is filled in does not begin with a word that is closed by a brace: it is longer than
the word, and has no brace to close it. -/
theorem not_starts_closed (hvalue : '\x7d' ∉ value) {word : List Char}
    (hlength : word.length < value.length) (rest : List Char) :
    ¬ word ++ ['\x7d'] <+: value ++ rest := by
  intro h
  have hshort : (word ++ ['\x7d']).length ≤ value.length := by
    rw [List.length_append, List.length_singleton]
    omega
  have hwithin := List.prefix_of_prefix_length_le h (List.prefix_append value rest) hshort
  exact hvalue (hwithin.subset (by simp))

/-- **A word that is closed by a brace is found where it was before.** -/
theorem closed_prefix_fill (hvalue : '\x7d' ∉ value) {word : List Char} (hword : '\x7b' ∉ word)
    (hlength : word.length < value.length) :
    word ++ ['\x7d'] <+: fill ('\x7b' :: name) value cs ↔ word ++ ['\x7d'] <+: cs := by
  induction cs generalizing word with
  | nil => rfl
  | cons c cs ih =>
    by_cases hplace : '\x7b' :: name <+: c :: cs
    · -- a place begins with a brace, which is no part of the word
      obtain ⟨back, hback⟩ := hplace
      rw [← hback, fill_place (List.cons_ne_nil _ _)]
      refine iff_of_false (not_starts_closed hvalue hlength _) fun h => ?_
      have hhead : '\x7b' ∈ word ++ ['\x7d'] := by
        cases word with
        | nil => exact absurd (List.cons_prefix_cons.1 h).1 (by decide)
        | cons a word => exact (List.cons_prefix_cons.1 h).1 ▸ List.mem_cons_self
      exact hword (by simpa using hhead)
    · rw [fill_cons hplace]
      cases word with
      | nil => simp [List.cons_prefix_cons]
      | cons a word =>
        obtain ⟨-, hrest⟩ := List.ne_and_not_mem_of_not_mem_cons hword
        have hless : word.length < value.length := by
          rw [List.length_cons] at hlength
          omega
        rw [List.cons_append, List.cons_prefix_cons, List.cons_prefix_cons, ih hrest hless]

end Filling

/-! ## Both replacements -/

/-- A part of a template. -/
inductive Piece where
  | letter (c : Char)
  | code
  | email

namespace Piece

/-- How a part is written in a template. -/
def spelling : Piece → List Char
  | letter c => [c]
  | code => codePlace
  | email => emailPlace

/-- What stands for a part in a mail. -/
def value (email code : List Char) : Piece → List Char
  | letter c => [c]
  | .code => code
  | .email => email

end Piece

/-- A template cut up in one pass from the left: a place is one part, and whatever begins no
place is a letter. -/
def pieces : List Char → List Piece
  | [] => []
  | c :: cs =>
    if codePlace <+: c :: cs then .code :: pieces (cs.drop (codePlace.length - 1))
    else if emailPlace <+: c :: cs then .email :: pieces (cs.drop (emailPlace.length - 1))
    else .letter c :: pieces cs
termination_by cs => cs.length
decreasing_by all_goals simp only [List.length_drop, List.length_cons]; omega

/-- No two places begin where one does. -/
theorem not_both_places {cs : List Char} (hcode : codePlace <+: cs) : ¬ emailPlace <+: cs := by
  rintro ⟨back, rfl⟩
  obtain ⟨back', hback⟩ := hcode
  have hname : "code\x7d".toList ++ back' = "email\x7d".toList ++ back := (List.cons.inj hback).2
  have hfirst : 'c' = 'e' := (List.cons.inj hname).1
  exact absurd hfirst (by decide)

@[simp] theorem pieces_nil : pieces [] = [] := by
  rw [pieces]

@[simp] theorem pieces_codePlace (cs : List Char) :
    pieces (codePlace ++ cs) = .code :: pieces cs := by
  show pieces ('\x7b' :: ("code\x7d".toList ++ cs)) = _
  have hplace : codePlace <+: '\x7b' :: ("code\x7d".toList ++ cs) :=
    List.prefix_append codePlace cs
  rw [pieces, if_pos hplace]
  rfl

@[simp] theorem pieces_emailPlace (cs : List Char) :
    pieces (emailPlace ++ cs) = .email :: pieces cs := by
  show pieces ('\x7b' :: ("email\x7d".toList ++ cs)) = _
  have hplace : emailPlace <+: '\x7b' :: ("email\x7d".toList ++ cs) :=
    List.prefix_append emailPlace cs
  rw [pieces, if_neg fun hcode => not_both_places hcode hplace, if_pos hplace]
  rfl

theorem pieces_cons {c : Char} {cs : List Char} (hcode : ¬ codePlace <+: c :: cs)
    (hemail : ¬ emailPlace <+: c :: cs) : pieces (c :: cs) = .letter c :: pieces cs := by
  rw [pieces, if_neg hcode, if_neg hemail]

/-- A template is empty, or begins with a place, or with a letter. -/
@[elab_as_elim]
theorem pieces_induction {motive : List Char → Prop} (nil : motive [])
    (code : ∀ cs, motive cs → motive (codePlace ++ cs))
    (email : ∀ cs, motive cs → motive (emailPlace ++ cs))
    (letter : ∀ c cs, ¬ codePlace <+: c :: cs → ¬ emailPlace <+: c :: cs → motive cs →
      motive (c :: cs)) (cs : List Char) : motive cs := by
  have hless {place : List Char} (hplace : 0 < place.length) (back : List Char) :
      back.length < (place ++ back).length := by
    rw [List.length_append]
    omega
  induction hn : cs.length using Nat.strong_induction_on generalizing cs with
  | _ n ih =>
  subst hn
  by_cases hcode : codePlace <+: cs
  · obtain ⟨back, rfl⟩ := hcode
    exact code back (ih _ (hless (by decide) back) back rfl)
  by_cases hemail : emailPlace <+: cs
  · obtain ⟨back, rfl⟩ := hemail
    exact email back (ih _ (hless (by decide) back) back rfl)
  cases cs with
  | nil => exact nil
  | cons c cs => exact letter c cs hcode hemail (ih _ (by simp) cs rfl)

/-- Nothing of a template is lost when it is cut up. -/
theorem flatMap_spelling_pieces (cs : List Char) : (pieces cs).flatMap Piece.spelling = cs := by
  induction cs using pieces_induction with
  | nil => rw [pieces_nil, List.flatMap_nil]
  | code cs ih => rw [pieces_codePlace, List.flatMap_cons, ih, Piece.spelling]
  | email cs ih => rw [pieces_emailPlace, List.flatMap_cons, ih, Piece.spelling]
  | letter c cs hcode hemail ih =>
    rw [pieces_cons hcode hemail, List.flatMap_cons, ih, Piece.spelling, List.singleton_append]

/-! ### A place of an email behind the first replacement -/

section Codes

variable {email code : List Char}

theorem fill_codePlace_emailPlace (cs : List Char) :
    fill codePlace code (emailPlace ++ cs) = emailPlace ++ fill codePlace code cs := by
  have hplace : ¬ codePlace <+: '\x7b' :: ("email\x7d".toList ++ cs) := fun hcode =>
    not_both_places hcode (List.prefix_append emailPlace cs)
  have hname : '\x7b' ∉ "email\x7d".toList := by decide
  show fill codePlace code ('\x7b' :: ("email\x7d".toList ++ cs)) = _
  rw [fill_cons hplace]
  exact congrArg ('\x7b' :: ·) (fill_append_of_not_mem hname)

/-- **Filling in the code makes no place of an email, and takes none away.** -/
theorem emailPlace_prefix_fill (hopening : '\x7b' ∉ code) (hclosing : '\x7d' ∉ code)
    (hlength : 5 < code.length) (cs : List Char) :
    emailPlace <+: fill codePlace code cs ↔ emailPlace <+: cs := by
  have hplace : emailPlace = '\x7b' :: ("email".toList ++ ['\x7d']) := by decide
  by_cases hcode : codePlace <+: cs
  · -- the code that was filled in begins with no brace
    refine iff_of_false (fun h => ?_) (not_both_places hcode)
    obtain ⟨back, rfl⟩ := hcode
    rw [fill_place (by decide)] at h
    obtain ⟨c, r, rfl⟩ := List.exists_cons_of_length_pos (Nat.zero_lt_of_lt hlength)
    rw [hplace] at h
    have hhead := (List.cons_prefix_cons.1 h).1
    exact hopening (hhead ▸ List.mem_cons_self)
  · cases cs with
    | nil => rfl
    | cons c cs =>
      have hname : "email".toList.length < code.length := hlength
      rw [fill_cons hcode, hplace, List.cons_prefix_cons, List.cons_prefix_cons]
      exact and_congr_right fun _ => closed_prefix_fill hclosing (by decide) hname

/-- **Both replacements are one pass** over the template. -/
theorem fill_fill (hopening : '\x7b' ∉ code) (hclosing : '\x7d' ∉ code)
    (hlength : 5 < code.length) (cs : List Char) :
    fill emailPlace email (fill codePlace code cs) =
      (pieces cs).flatMap (Piece.value email code) := by
  induction cs using pieces_induction with
  | nil =>
    rw [pieces_nil]
    rfl
  | code cs ih =>
    rw [pieces_codePlace, List.flatMap_cons, ← ih, fill_place (by decide)]
    exact fill_append_of_not_mem hopening
  | email cs ih =>
    rw [pieces_emailPlace, List.flatMap_cons, ← ih, fill_codePlace_emailPlace,
      fill_place (by decide), Piece.value]
  | letter c cs hcode hemail ih =>
    have hletter : fill codePlace code (c :: cs) = c :: fill codePlace code cs := fill_cons hcode
    have hkept : ¬ emailPlace <+: c :: fill codePlace code cs := by
      rw [← hletter, emailPlace_prefix_fill hopening hclosing hlength]
      exact hemail
    rw [pieces_cons hcode hemail, List.flatMap_cons, ← ih, hletter, fill_cons hkept, Piece.value,
      List.singleton_append]

end Codes

/-! ## Places that stand in a template -/

/-- What has an opening brace at most as its first character does not reach over the brace
behind a text that it begins in. -/
theorem prefix_append_opening {place front : List Char} (hplace : '\x7b' ∉ place.tail)
    (hfront : front ≠ []) (back : List Char) :
    place <+: front ++ '\x7b' :: back ↔ place <+: front := by
  refine ⟨fun h => ?_, fun h => h.trans (List.prefix_append _ _)⟩
  by_cases hlength : place.length ≤ front.length
  · exact List.prefix_of_prefix_length_le h (List.prefix_append _ _) hlength
  · -- the brace would be one of the place
    have hbrace : front ++ ['\x7b'] <+: front ++ '\x7b' :: back := ⟨back, by simp⟩
    have hreach : (front ++ ['\x7b']).length ≤ place.length := by
      rw [List.length_append, List.length_singleton]
      omega
    obtain ⟨rest, hrest⟩ := List.prefix_of_prefix_length_le hbrace h hreach
    obtain ⟨c, front, rfl⟩ := List.exists_cons_of_ne_nil hfront
    refine absurd ?_ hplace
    rw [← hrest]
    simp

/-- A template may be cut up before and behind the start of any brace on its own. -/
theorem pieces_append_opening (front back : List Char) :
    pieces (front ++ '\x7b' :: back) = pieces front ++ pieces ('\x7b' :: back) := by
  induction front using pieces_induction with
  | nil => rw [pieces_nil, List.nil_append, List.nil_append]
  | code cs ih => rw [List.append_assoc, pieces_codePlace, pieces_codePlace, ih, List.cons_append]
  | email cs ih =>
    rw [List.append_assoc, pieces_emailPlace, pieces_emailPlace, ih, List.cons_append]
  | letter c cs hcode hemail ih =>
    have hcode' := mt (prefix_append_opening (by decide) (List.cons_ne_nil c cs) back).1 hcode
    have hemail' := mt (prefix_append_opening (by decide) (List.cons_ne_nil c cs) back).1 hemail
    rw [List.cons_append] at hcode' hemail' ⊢
    rw [pieces_cons hcode hemail, pieces_cons hcode' hemail', ih, List.cons_append]

/-- A place in a template is a part of it, whatever stands around it. -/
theorem pieces_append_place {p : Piece} (hp : p = .code ∨ p = .email) (front back : List Char) :
    pieces (front ++ p.spelling ++ back) = pieces front ++ p :: pieces back := by
  rw [List.append_assoc]
  rcases hp with rfl | rfl
  · rw [← pieces_codePlace]
    exact pieces_append_opening front _
  · rw [← pieces_emailPlace]
    exact pieces_append_opening front _

/-! ## Mails -/

/-- A template with all its places filled in at once. -/
def substitute (template email code : String) : String :=
  String.ofList ((pieces template.toList).flatMap (Piece.value email.toList code.toList))

/-- What is filled into a place stands in the mail as it is. -/
theorem substitute_append_place {p : Piece} (hp : p = .code ∨ p = .email)
    (front back email code : String) :
    substitute (front ++ String.ofList p.spelling ++ back) email code =
      substitute front email code ++ String.ofList (p.value email.toList code.toList) ++
        substitute back email code := by
  have hpieces := pieces_append_place hp front.toList back.toList
  have htemplate : (front ++ String.ofList p.spelling ++ back).toList =
      front.toList ++ p.spelling ++ back.toList := by
    simp
  unfold substitute
  rw [htemplate, hpieces, List.flatMap_append, List.flatMap_cons, String.ofList_append,
    String.ofList_append, String.append_assoc]

theorem render_eq_substitute {code : String} (h : IsCode code) (template email : String) :
    render template email code = substitute template email code := by
  have hlong : 5 < code.toList.length := by
    rw [h.length_eq]
    decide
  unfold render substitute
  rw [fill_fill (h.not_mem (by decide)) (h.not_mem (by decide)) hlong]

/-- **The mail with a code is its template with all places filled in at once.** Where the
template names the email or the code, the mail has it as it is, whatever is written in it. -/
theorem verification_text_eq (t : MailTemplates) (email : String) {code : String}
    (h : IsCode code) :
    (t.verification email code).text = substitute t.verificationBody email code ∧
      (∀ front back, t.verificationBody = front ++ "\x7bemail\x7d" ++ back →
        (t.verification email code).text =
          substitute front email code ++ email ++ substitute back email code) ∧
      ∀ front back, t.verificationBody = front ++ "\x7bcode\x7d" ++ back →
        (t.verification email code).text =
          substitute front email code ++ code ++ substitute back email code := by
  have htext : (t.verification email code).text = substitute t.verificationBody email code :=
    render_eq_substitute h _ _
  refine ⟨htext, fun front back hbody => ?_, fun front back hbody => ?_⟩
  · have hplace := substitute_append_place (.inr rfl) front back email code
    rw [Piece.value, String.ofList_toList] at hplace
    rw [htext, hbody]
    exact hplace
  · have hplace := substitute_append_place (.inl rfl) front back email code
    rw [Piece.value, String.ofList_toList] at hplace
    rw [htext, hbody]
    exact hplace

/-- An email that is written with places, and a template with braces around a place. -/
theorem verification_text_eq_braces :
    IsCode "0123456789abcdef0123456789abcdef" ∧
      substitute "\x7b\x7bcode\x7dmail\x7d \x7bemail\x7d" "\x7bcode\x7d@\x7bemail\x7d"
          "0123456789abcdef0123456789abcdef" =
        "\x7b0123456789abcdef0123456789abcdefmail\x7d \x7bcode\x7d@\x7bemail\x7d" := by
  have hcode : IsCode "0123456789abcdef0123456789abcdef" :=
    ⟨by decide, List.all_eq_true.1 (by decide)⟩
  obtain ⟨htext, -, -⟩ := verification_text_eq
    { verificationBody := "\x7b\x7bcode\x7dmail\x7d \x7bemail\x7d" }
    "\x7bcode\x7d@\x7bemail\x7d" hcode
  refine ⟨hcode, htext.symm.trans ?_⟩
  decide +kernel

end MailTemplates

end Onboarding
