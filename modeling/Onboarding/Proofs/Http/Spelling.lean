import Mathlib.Logic.Relation
import Onboarding.Proofs.Http.Refusal
import Onboarding.Proofs.Text.SmallLetters
/-!
# Spellings — an email that is written in many ways is registered once

A client may put blanks around an email and write letters of ASCII in either case
(`Email.Respelled`). None of this is left once the email is normalized
(`Email.normalize?_of_respelled`), and normalizing what was normalized changes nothing
(`Email.isCanonical_of_normalize?`). A request to register is handed on with the normalized
email alone, so the server answers it and is changed by it as if it had been spelled
otherwise.
-/

namespace Onboarding

/-! ## Trimming -/

theorem isBlank_toLower_eq (c : Char) : isBlank c.toLower = isBlank c :=
  Lowercase.toNat_toLower_congr (P := inRanges blankRanges) (by decide) c

theorem trimChars_map_toLower (cs : List Char) :
    trimChars (cs.map Char.toLower) = (trimChars cs).map Char.toLower := by
  have hblank : isBlank ∘ Char.toLower = isBlank := funext isBlank_toLower_eq
  unfold trimChars dropEndWhile
  rw [List.dropWhile_map, hblank, ← List.map_reverse, List.dropWhile_map, hblank, List.map_reverse]

theorem trimChars_cons {c : Char} (h : isBlank c = true) (cs : List Char) :
    trimChars (c :: cs) = trimChars cs := by
  unfold trimChars
  rw [List.dropWhile_cons_of_pos h]

theorem dropEndWhile_concat {α : Type} {p : α → Bool} {x : α} (h : p x = true) (xs : List α) :
    dropEndWhile p (xs ++ [x]) = dropEndWhile p xs := by
  unfold dropEndWhile
  rw [List.reverse_append, List.reverse_singleton, List.singleton_append,
    List.dropWhile_cons_of_pos h]

theorem trimChars_concat {c : Char} (h : isBlank c = true) (cs : List Char) :
    trimChars (cs ++ [c]) = trimChars cs := by
  unfold trimChars
  rw [List.dropWhile_append]
  split
  · -- nothing but blanks
    rename_i hnil
    rw [List.isEmpty_iff.1 hnil, List.dropWhile_cons_of_pos h]
    rfl
  · exact dropEndWhile_concat h _

theorem trim_asciiLower (s : String) : trim (asciiLower s) = asciiLower (trim s) := by
  simp [trim, asciiLower, trimChars_map_toLower]

namespace Email

/-! ## Spellings -/

/-- One change of how a text is written: a blank is put before it or behind it, or one of its
letters is made small if it is a letter of ASCII. -/
inductive Touched : String → String → Prop
  | before {c : Char} (blank : isBlank c = true) (s : String) :
    Touched s (String.ofList (c :: s.toList))
  | behind {c : Char} (blank : isBlank c = true) (s : String) :
    Touched s (String.ofList (s.toList ++ [c]))
  | letter (front : List Char) (c : Char) (back : List Char) :
    Touched (String.ofList (front ++ c :: back)) (String.ofList (front ++ c.toLower :: back))

/-- Two spellings of one text: such changes and their opposites lead from one to the other. -/
def Respelled : String → String → Prop := Relation.EqvGen Touched

/-- Only small letters count. -/
theorem normalize?_asciiLower (raw : String) : normalize? (asciiLower raw) = normalize? raw := by
  unfold normalize?
  rw [trim_asciiLower, lowercase_asciiLower]

theorem normalize?_of_touched {raw raw' : String} (h : Touched raw raw') :
    normalize? raw' = normalize? raw := by
  cases h with
  | before blank s =>
    unfold normalize? trim
    rw [String.toList_ofList, trimChars_cons blank]
  | behind blank s =>
    unfold normalize? trim
    rw [String.toList_ofList, trimChars_concat blank]
  | letter front c back =>
    have hsame : asciiLower (String.ofList (front ++ c.toLower :: back)) =
        asciiLower (String.ofList (front ++ c :: back)) := by
      simp only [asciiLower, String.toList_ofList, List.map_append, List.map_cons, toLower_toLower]
    rw [← normalize?_asciiLower, hsame, normalize?_asciiLower]

/-- **All spellings of an email are normalized to one.** -/
theorem normalize?_of_respelled {raw raw' : String} (h : Respelled raw raw') :
    normalize? raw' = normalize? raw := by
  induction h with
  | rel _ _ h => exact normalize?_of_touched h
  | refl _ => rfl
  | symm _ _ _ ih => exact ih.symm
  | trans _ _ _ _ _ ih ih' => exact ih'.trans ih

/-! ### Blanks around a text and letters in either case -/

theorem respelled_front {front : List Char} (h : ∀ c ∈ front, isBlank c = true) (cs : List Char) :
    Respelled (String.ofList cs) (String.ofList (front ++ cs)) := by
  induction front with
  | nil => exact .refl _
  | cons c front ih =>
    have hrest := ih fun c' hc' => h c' (List.mem_cons_of_mem _ hc')
    have hlast := Touched.before (h c List.mem_cons_self) (String.ofList (front ++ cs))
    rw [String.toList_ofList] at hlast
    exact hrest.trans _ _ _ (.rel _ _ hlast)

theorem respelled_back {back : List Char} (h : ∀ c ∈ back, isBlank c = true) (cs : List Char) :
    Respelled (String.ofList cs) (String.ofList (cs ++ back)) := by
  induction back using List.reverseRecOn with
  | nil =>
    rw [List.append_nil]
    exact .refl _
  | append_singleton back c ih =>
    have hrest := ih fun c' hc' => h c' (List.mem_append_left _ hc')
    have hlast := Touched.behind (h c (by simp)) (String.ofList (cs ++ back))
    rw [String.toList_ofList, List.append_assoc] at hlast
    exact hrest.trans _ _ _ (.rel _ _ hlast)

/-- The letters are made small one after the other. -/
theorem respelled_small (front cs : List Char) :
    Respelled (String.ofList (front ++ cs)) (String.ofList (front ++ cs.map Char.toLower)) := by
  induction cs generalizing front with
  | nil => exact .refl _
  | cons c cs ih =>
    have hfirst := Touched.letter front c cs
    have hrest := ih (front ++ [c.toLower])
    rw [List.append_assoc, List.append_assoc, List.singleton_append, List.singleton_append] at hrest
    exact .trans _ _ _ (.rel _ _ hfirst) hrest

theorem respelled_bare (core : List Char) {front back : List Char}
    (hfront : ∀ c ∈ front, isBlank c = true) (hback : ∀ c ∈ back, isBlank c = true) :
    Respelled (String.ofList (core.map Char.toLower)) (String.ofList (front ++ core ++ back)) := by
  have hsmall := (respelled_small [] core).symm
  have hbefore := respelled_front hfront core
  have hbehind := respelled_back hback (front ++ core)
  exact hsmall.trans _ _ _ (hbefore.trans _ _ _ hbehind)

/-- **Blanks around a text, and the case of its letters of ASCII, are a matter of spelling**:
both texts are spellings of the core in small letters. -/
theorem respelled_of_core {front core back front' core' back' : List Char}
    (hfront : ∀ c ∈ front, isBlank c = true) (hback : ∀ c ∈ back, isBlank c = true)
    (hfront' : ∀ c ∈ front', isBlank c = true) (hback' : ∀ c ∈ back', isBlank c = true)
    (hcore : core.map Char.toLower = core'.map Char.toLower) :
    Respelled (String.ofList (front ++ core ++ back))
      (String.ofList (front' ++ core' ++ back')) := by
  have hleft := respelled_bare core hfront hback
  have hright := respelled_bare core' hfront' hback'
  rw [hcore] at hleft
  exact (hleft.symm _ _).trans _ _ _ hright

/-! ## The one spelling -/

/-- The one spelling of an email: it has no blanks, has something on either side of its last
`@`, and is left as it is when it is normalized once more. -/
structure IsCanonical (email : String) : Prop where
  unblanked : ∀ c ∈ email.toList, isBlank c = false
  parts : ∃ user domain, email.toList = user ++ '@' :: domain ∧ '@' ∉ domain ∧
    user ≠ [] ∧ domain ≠ []
  fixed : normalize? email = some email

theorem parts_of_isPlausible {cs : List Char} (h : isPlausible cs = true) :
    ∃ user domain, cs = user ++ '@' :: domain ∧ '@' ∉ domain ∧ user ≠ [] ∧ domain ≠ [] := by
  unfold isPlausible at h
  split at h
  · cases h
  · rename_i user domain hsplit
    obtain ⟨hparts, hlast⟩ := splitLast?_eq_some_iff.1 hsplit
    simp only [Bool.and_eq_true, Bool.not_eq_true', List.isEmpty_eq_false_iff] at h
    exact ⟨user, domain, hparts, hlast, h.1.1, h.1.2⟩

/-- **What is normalized has one spelling**, its own. -/
theorem isCanonical_of_normalize? {raw email : String} (h : normalize? raw = some email) :
    IsCanonical email := by
  obtain ⟨hlower, hplausible⟩ := eq_of_normalize? h
  have hblank := isBlank_of_normalize? h
  refine ⟨hblank, parts_of_isPlausible hplausible, ?_⟩
  have htrim : trim email = email := by
    rw [trim, trimChars_eq_self hblank, String.ofList_toList]
  have hsmall : lowercase email = email := by
    rw [hlower, lowercase_lowercase]
  unfold normalize?
  rw [htrim, hsmall, if_pos hplausible]

end Email

open StoreView

namespace Server

/-! ## Registering -/

variable {σ : Type} [Store σ] {settings : Settings} {s : Server σ} {q q' : HttpRequest}
  {b : RegisterBody} {email : String}

/-- Of the email only the normalized one is handed on. -/
theorem register_respelled {raw' : String}
    (h : Email.normalize? raw' = Email.normalize? b.email) :
    (register settings { b with email := raw' } : Handler σ Json) = register settings b := by
  unfold register
  rw [h]

/-- **However an email is spelled, the answer and the server afterwards are the same.** -/
theorem handle_respelled {raw' : String} (h : Email.Respelled b.email raw') (hq : q.Registers b)
    (hq' : q'.Registers { b with email := raw' }) : handle settings q' s = handle settings q s := by
  have hnormal := Email.normalize?_of_respelled h
  rw [handle_of_registers hq, handle_of_registers hq', register_respelled hnormal]

/-- A request to register succeeds only under an owner: the answer names the owner, and a
store whose records are in order holds a registration of it. -/
structure RegistersOnly [StoreView σ] (settings : Settings) (s : Server σ) (q : HttpRequest)
    (o : Owner) : Prop where
  answer : ∀ r, (handle settings q s).1 = .ok r → r.status = 200 → r = .json 200 (ownerReply o)
  stored : s.world.Good → ∀ r, (handle settings q s).1 = .ok r → r.status = 200 →
    ∃ p, (contents (handle settings q s).2.world.store).Holds p ∧ p.owner = o

/-- A request to register that succeeds was answered by a handler that succeeded. -/
theorem ok_of_registers (hq : q.Registers b) {r : Response}
    (hanswer : (handle settings q s).1 = .ok r) (hstatus : r.status = 200)
    (hnormal : Email.normalize? b.email = some email) :
    ∃ j, (register settings b s).1 = .ok j ∧ r = .json 200 j := by
  rw [handle_of_registers hq] at hanswer
  rcases register_cases settings s hnormal with ⟨j, hj⟩ | ⟨e, he, -⟩
  · rw [replying_of_ok hj] at hanswer
    cases hanswer
    exact ⟨j, hj, rfl⟩
  · rw [replying_of_error he] at hanswer
    split at hanswer
    · cases hanswer
    · cases hanswer
      exact absurd hstatus (RequestError.status_ne _)

/-- A registration that succeeds answers with the owner of the email. -/
theorem owner_of_register {address : WalletAddress} {code? : Option String} {w : World σ}
    {o : Owner} (h : (Onboarding.register settings email address code? w).1 = .ok o) :
    o = .ofEmail email := by
  have hout := Prod.eta (Onboarding.register settings email address code? w)
  rw [h] at hout
  unfold Onboarding.register at hout
  obtain ⟨_, w₁, -, hchecked⟩ := Computation.bind_eq_ok hout.symm
  obtain ⟨listed, w₂, -, hread⟩ := Computation.bind_eq_ok hchecked
  cases listed with
  | true => cases hread
  | false =>
    obtain ⟨now, w₃, -, htimed⟩ := Computation.bind_eq_ok hread
    obtain ⟨r, w₄, -, hstored⟩ := Computation.bind_eq_ok htimed
    obtain ⟨_, w₅, -, hmailed⟩ := Computation.bind_eq_ok hstored
    cases hmailed
    rfl

/-- A registration that succeeds is answered with the owner of the normalized email. -/
theorem reply_of_register (hnormal : Email.normalize? b.email = some email) {j : Json}
    (hj : (register settings b s).1 = .ok j) : j = ownerReply (.ofEmail email) := by
  unfold register at hj
  rw [hnormal] at hj
  dsimp only at hj
  generalize (b.referralCode.map trim).filter (!·.isEmpty) = code? at hj
  cases hout : (Onboarding.register settings email ⟨trim b.address⟩ code? s.world).1 with
  | error e =>
    rw [Computation.bind_of_error (call_of_error hout)] at hj
    cases hj
  | ok o =>
    rw [Computation.bind_of_ok (call_of_ok hout)] at hj
    cases hj
    rw [owner_of_register hout]

/-- What a request to register enters into the books: a registration of the owner of the
normalized email, or nothing if it fails. -/
theorem register_enters [LawfulStore σ] (hs : s.world.Good) (hb : b.Short)
    (hnormal : Email.normalize? b.email = some email) :
    (∃ p entry, (entry = .enrolled p ∧ p.email = email ∨ entry = .renewed p) ∧
        p.owner = .ofEmail email ∧ Made settings s.world (register settings b s).2.world entry) ∨
      (∃ e, (register settings b s).1 = .error e) ∧
        Made settings s.world (register settings b s).2.world .nothing := by
  unfold register
  rw [hnormal]
  dsimp only
  rcases register_made hs (hb.byteLength_email hnormal) fun _ => hb.byteLength_code with
    ⟨p, entry, hentry, howner, hok, hmade⟩ | ⟨⟨e, herror⟩, hmade⟩
  · rw [Computation.bind_of_ok (call_of_ok hok)]
    generalize (Onboarding.register settings email _ _ s.world).2 = w at hmade ⊢
    exact .inl ⟨p, entry, hentry, howner, hmade⟩
  · rw [Computation.bind_of_error (call_of_error herror)]
    generalize (Onboarding.register settings email _ _ s.world).2 = w at hmade ⊢
    exact .inr ⟨⟨_, rfl⟩, hmade⟩

/-- A registration that succeeds is stored under the owner of the normalized email. -/
theorem holds_register [LawfulStore σ] (hs : s.world.Good) (hb : b.Short)
    (hnormal : Email.normalize? b.email = some email) {j : Json}
    (hj : (register settings b s).1 = .ok j) :
    ∃ p, (contents (register settings b s).2.world.store).Holds p ∧ p.owner = .ofEmail email := by
  rcases register_enters hs hb hnormal with ⟨p, entry, hentry, howner, hmade⟩ | ⟨⟨e, herror⟩, -⟩
  · refine ⟨p, ?_, howner⟩
    rcases hentry with ⟨rfl, -⟩ | rfl
    · exact hmade.step.holds_enrolled
    · exact hmade.step.holds_renewed
  · cases hj.symm.trans herror

/-- **A registration that succeeds is one of the owner of the normalized email.** -/
theorem registersOnly_of_normalize? [LawfulStore σ] (hq : q.Registers b)
    (hnormal : Email.normalize? b.email = some email) :
    RegistersOnly settings s q (.ofEmail email) := by
  have hshort : b.Short := RegisterBody.short_of_ofJsonFront hq.sized hq.body
  have hworld : (handle settings q s).2.world = (register settings b s).2.world := by
    rw [handle_of_registers hq, replying, world_counted]
  constructor
  · intro r hanswer hstatus
    obtain ⟨j, hj, hr⟩ := ok_of_registers hq hanswer hstatus hnormal
    rw [hr, reply_of_register hnormal hj]
  · intro hs r hanswer hstatus
    obtain ⟨j, hj, -⟩ := ok_of_registers hq hanswer hstatus hnormal
    rw [hworld]
    exact holds_register hs hshort hnormal hj

/-- **All spellings of an email are one email to the server.** What is normalized is left as
it is; blanks around a text and the case of its letters of ASCII change neither what it is
normalized to nor how the server takes a request to register it; and such a request succeeds
only under the owner of the normalized email. -/
theorem spellings_share_owner [LawfulStore σ] (settings : Settings) (s : Server σ)
    (raw : String) :
    (∀ email, Email.normalize? raw = some email → Email.IsCanonical email) ∧
      ∀ raw', Email.Respelled raw raw' →
        Email.normalize? raw' = Email.normalize? raw ∧
        ∀ q q' b, q.Registers b → b.email = raw → q'.Registers { b with email := raw' } →
          handle settings q' s = handle settings q s ∧
          ∀ email, Email.normalize? raw = some email →
            RegistersOnly settings s q (.ofEmail email) ∧
            RegistersOnly settings s q' (.ofEmail email) := by
  refine ⟨fun email hnormal => Email.isCanonical_of_normalize? hnormal, fun raw' hspelled => ?_⟩
  have hsame := Email.normalize?_of_respelled hspelled
  refine ⟨hsame, fun q q' b hq hemail hq' => ?_⟩
  subst hemail
  refine ⟨handle_respelled hspelled hq hq', fun email hnormal => ⟨?_, ?_⟩⟩
  · exact registersOnly_of_normalize? hq hnormal
  · exact registersOnly_of_normalize? hq' (hsame.trans hnormal)

/-- An email with a sigma at its end and blanks around it, spelled in two ways. -/
theorem spellings_share_owner_sigma :
    Email.Respelled " L@x.COMΣ\n" "l@X.comΣ" ∧
      (registering " L@x.COMΣ\\n").Registers (registeringBody " L@x.COMΣ\n") ∧
      (registering "l@X.comΣ").Registers (registeringBody "l@X.comΣ") ∧
      Email.IsCanonical "l@x.comς" ∧
      handle { } (registering "l@X.comΣ") (start ⟨0⟩ : Server StoreKind.table.State) =
        handle { } (registering " L@x.COMΣ\\n") (start ⟨0⟩) ∧
      RegistersOnly { } (start ⟨0⟩ : Server StoreKind.table.State) (registering "l@X.comΣ")
        (.ofEmail "l@x.comς") := by
  have hspelled : Email.Respelled (String.ofList ([' '] ++ "L@x.COMΣ".toList ++ ['\n']))
      (String.ofList ([] ++ "l@X.comΣ".toList ++ [])) :=
    Email.respelled_of_core (List.forall_mem_singleton.2 (by decide))
      (List.forall_mem_singleton.2 (by decide)) nofun nofun (by decide)
  have hfirst : (registering " L@x.COMΣ\\n").Registers (registeringBody " L@x.COMΣ\n") :=
    ⟨by decide +kernel, by decide +kernel, rfl, rfl, by decide +kernel, by decide +kernel,
      by decide +kernel⟩
  have hsecond : (registering "l@X.comΣ").Registers (registeringBody "l@X.comΣ") :=
    ⟨by decide +kernel, by decide +kernel, rfl, rfl, by decide +kernel, by decide +kernel,
      by decide +kernel⟩
  have hnormal : Email.normalize? " L@x.COMΣ\n" = some "l@x.comς" := by
    decide +kernel
  obtain ⟨hcanonical, hspellings⟩ :=
    spellings_share_owner { } (start ⟨0⟩ : Server StoreKind.table.State) " L@x.COMΣ\n"
  obtain ⟨-, hshare⟩ := hspellings _ hspelled
  obtain ⟨hhandle, howners⟩ := hshare _ _ _ hfirst rfl hsecond
  exact ⟨hspelled, hfirst, hsecond, hcanonical _ hnormal, hhandle, (howners _ hnormal).2⟩

end Server

end Onboarding
