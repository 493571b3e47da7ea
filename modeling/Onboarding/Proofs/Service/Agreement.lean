import Onboarding.Proofs.Service.Run
/-!
# Agreement — a registration names an inviter's code exactly if it has a referral

Three calls give an inviter to a receiver, and each writes two tables: the code goes into
the registration, and the referral goes under the receiver. `Contents.Paired` says of one
owner that the two say the same, and that whoever is named as the sender hands out that
code. What an entry puts and refers is always of one of two kinds: a registration with the
inviter it had or with one that was found just now (`Paired.put`), or a referral that moves
on between the same two (`Paired.refer`).
-/

namespace Onboarding

open StoreView

namespace Contents

variable {c c' : Contents} {o : Owner}

/-- The code of the inviter that the registration of an owner names. -/
def inviterCode (c : Contents) (o : Owner) : Option String :=
  (c.registration o).bind Registration.referralCode

/-- An owner hands out a code. -/
def HandsOut (c : Contents) (o : Owner) (code : String) : Prop :=
  ∃ q, c.registration o = some q ∧ q.ownReferralCode = code

/-- The registration and the referral of an owner say the same of who invited the owner. -/
inductive Paired (c : Contents) (o : Owner) : Prop
  | alone (code : c.inviterCode o = none) (row : c.referral o = none)
  | referred {f : Referral} {inviter : String} (code : c.inviterCode o = some inviter)
      (row : c.referral o = some f) (other : f.sender ≠ o) (sender : c.HandsOut f.sender inviter)

theorem paired_empty (o : Owner) : empty.Paired o := .alone rfl rfl

/-- A registration with a code that names an inviter. -/
theorem inviterCode_eq_some {code : String} : c.inviterCode o = some code ↔
    ∃ r, c.registration o = some r ∧ r.referralCode = some code := Option.bind_eq_some_iff

/-- Whoever hands out a code still does when a registration with the owner's own code takes
its place. -/
theorem HandsOut.put {r : Registration} {code : String} (h : c.HandsOut o code)
    (hkeep : ∀ q, c.registration r.owner = some q → r.ownReferralCode = q.ownReferralCode) :
    (c.put r).HandsOut o code := by
  obtain ⟨q, hq, hcode⟩ := h
  by_cases ho : o = r.owner
  · subst ho
    exact ⟨r, registration_put_self c r, (hkeep q hq).trans hcode⟩
  · exact ⟨q, (registration_put_of_ne ho).trans hq, hcode⟩

/-- What an owner hands out and whom the owner names are read off the registration. -/
theorem Paired.congr (h : c.Paired o) (hregistration : c'.inviterCode o = c.inviterCode o)
    (hreferral : c'.referral o = c.referral o)
    (hsenders : ∀ {p code}, c.HandsOut p code → c'.HandsOut p code) : c'.Paired o := by
  cases h with
  | alone code row => exact .alone (hregistration.trans code) (hreferral.trans row)
  | referred code row other sender =>
    exact .referred (hregistration.trans code) (hreferral.trans row) other (hsenders sender)

/-- **A registration keeps the pair of its owner** if it names the inviter it named before,
or one that is invited by just now. -/
theorem Paired.put {r : Registration} {code? : Option String} {sender? : Option Owner}
    (now : Timestamp) (hc : ∀ o, c.Paired o)
    (hkeep : ∀ q, c.registration r.owner = some q → r.ownReferralCode = q.ownReferralCode)
    (hcode : r.referralCode = code?.or (c.inviterCode r.owner))
    (hinvited : Invited c r.owner code? sender?) (o : Owner) :
    ((c.put r).invite r.owner now sender?).Paired o := by
  have hself : (c.put r).inviterCode r.owner = r.referralCode := by
    rw [inviterCode, registration_put_self, Option.bind_some]
  have hother : o ≠ r.owner → (c.put r).inviterCode o = c.inviterCode o := by
    intro ho
    rw [inviterCode, registration_put_of_ne ho, inviterCode]
  cases hinvited with
  | alone =>
    -- the registration names whom it named, and no referral moved
    refine (hc o).congr ?_ rfl fun h => h.put hkeep
    by_cases ho : o = r.owner
    · rw [ho]
      exact hself.trans hcode
    · exact hother ho
  | @invited code q named other first =>
    by_cases ho : o = r.owner
    · subst ho
      have hinviter : (c.put r).inviterCode r.owner = some code := hself.trans hcode
      refine .referred hinviter (referral_refer_self _ _) other ?_
      exact HandsOut.put ⟨q, named.1, named.2⟩ hkeep
    · refine (hc o).congr (hother ho) ?_ fun h => h.put hkeep
      exact referral_refer_of_ne ho

/-- A referral that moves on keeps the pair of its receiver. -/
theorem Paired.refer {f f' : Referral} (h : c.Paired o) (hf : c.Refers f)
    (hreceiver : f'.receiver = f.receiver) (hsender : f'.sender = f.sender) :
    (c.refer f').Paired o := by
  by_cases ho : o = f'.receiver
  · have hrow : c.referral o = some f := by rw [ho, hreceiver]; exact hf
    cases h with
    | alone _ row => cases row.symm.trans hrow
    | referred code row other sender =>
      cases row.symm.trans hrow
      rw [← hsender] at other sender
      subst ho
      exact .referred code (referral_refer_self c f') other sender
  · exact h.congr rfl (referral_refer_of_ne ho) id

/-- Requests and referrals agree. -/
structure Agreed (c : Contents) : Prop where
  /-- A receiver has a referral exactly if its registration names an inviter. -/
  tracked : ∀ o, (∃ f, c.referral o = some f) ↔
    ∃ r code, c.registration o = some r ∧ r.referralCode = some code
  /-- The referral is that receiver's, and its sender is someone else, who is registered and
  hands out the code that is named. -/
  parties : ∀ o f r code, c.referral o = some f → c.registration o = some r →
    r.referralCode = some code → f.receiver = o ∧ f.sender ≠ o ∧
      ∃ q, c.registration f.sender = some q ∧ q.ownReferralCode = code
  /-- No two owners hand out one code. -/
  codes : ∀ o p r q, c.registration o = some r → c.registration p = some q → o ≠ p →
    r.ownReferralCode ≠ q.ownReferralCode

/-- Contents whose owners are all paired agree. -/
theorem Coherent.agreed (hc : c.Coherent) (hpaired : ∀ o, c.Paired o) : c.Agreed where
  tracked o := by
    cases hpaired o with
    | alone code row =>
      constructor
      · rintro ⟨f, hf⟩
        cases row.symm.trans hf
      · rintro ⟨r, given, hr, hgiven⟩
        cases code.symm.trans (inviterCode_eq_some.2 ⟨r, hr, hgiven⟩)
    | @referred f inviter code row _ _ =>
      obtain ⟨r, hr, hcode⟩ := inviterCode_eq_some.1 code
      exact ⟨fun _ => ⟨r, inviter, hr, hcode⟩, fun _ => ⟨f, row⟩⟩
  parties o f r given hf hr hgiven := by
    have hnamed : c.inviterCode o = some given := inviterCode_eq_some.2 ⟨r, hr, hgiven⟩
    cases hpaired o with
    | alone code _ => cases code.symm.trans hnamed
    | referred code row other sender =>
      cases row.symm.trans hf
      cases code.symm.trans hnamed
      exact ⟨hc.receiver_eq hf, other, sender⟩
  codes o p r q hr hq hne hcode := by
    refine hne ?_
    rw [← hc.owner_eq hr, ← hc.owner_eq hq]
    exact hc.code_injective (hc.holds hr) (hc.holds hq) hcode

end Contents

/-- **Every entry keeps every owner paired.** -/
theorem Step.paired {settings : Settings} {now : Timestamp} {b b' : Books} {entry : Entry}
    (h : Step settings now b entry b') (hb : ∀ o, b.contents.Paired o) (o : Owner) :
    b'.contents.Paired o := by
  -- a registration that stays hands out what it handed out
  have hkept : ∀ {r r' : Registration}, b.contents.Holds r → r'.owner = r.owner →
      r'.ownReferralCode = r.ownReferralCode →
      ∀ q, b.contents.registration r'.owner = some q → r'.ownReferralCode = q.ownReferralCode := by
    intro r r' hr howner hcode q hq
    rw [howner, hr] at hq
    cases hq
    exact hcode
  have hnew : ∀ {r : Registration}, b.contents.registration r.owner = none →
      ∀ q, b.contents.registration r.owner = some q → r.ownReferralCode = q.ownReferralCode :=
    fun habsent q hq => nomatch habsent.symm.trans hq
  have hnamed : ∀ {r : Registration}, b.contents.Holds r →
      b.contents.inviterCode r.owner = r.referralCode := by
    intro r hr
    rw [Contents.inviterCode, hr, Option.bind_some]
  have hnobody : ∀ {p : Owner}, b.contents.registration p = none →
      b.contents.inviterCode p = none := by
    intro p hp
    rw [Contents.inviterCode, hp, Option.bind_none]
  cases h with
  | nothing | stakeRefused _ _ | stakeLost _ _ _ | grantRefused _ _ _ | grantLost _ _ _ =>
    exact hb o
  | @enrolled r sender? _ _ _ absent _ _ _ invited =>
    refine .put now hb (hnew absent) ?_ invited o
    rw [hnobody absent, Option.or_none]
  | @renewed r code? sender? held _ _ _ invited =>
    refine Contents.Paired.put (r := { r with
      referralCode := code?.or r.referralCode, createdAt := now }) now hb (hkept held rfl rfl) ?_
      invited o
    exact congrArg code?.or (hnamed held).symm
  | @tracked r code sender? held _ _ invited =>
    exact Contents.Paired.put (r := { r with referralCode := some code }) now hb
      (hkept held rfl rfl) rfl invited o
  | @confirmed r held _ =>
    refine Contents.Paired.put (r := { r with confirmedAt := some now }) now hb
      (hkept held rfl rfl) ?_ .alone o
    exact (hnamed held).symm
  | installed held _ _ => exact (hb o).refer held rfl rfl
  | paid held _ _ _ _ _ _ _ => exact (hb o).refer held rfl rfl
  | @granted r _ _ _ _ _ uninvited absent _ _ _ =>
    refine Contents.Paired.put now hb (hnew absent) ?_ .alone o
    rw [hnobody absent]
    exact uninvited

/-- **Registrations and referrals agree** in every run on every store, whatever fails around
the service and in the store itself. -/
theorem agreed_run (kind : StoreKind) (settings : Settings) (clock : Timestamp)
    (acts : List Act) :
    (contents ((World.start clock : World kind.State).run settings acts).store).Agreed := by
  have hgood := World.good_run settings (World.good_start clock : (World.start clock :
    World kind.State).Good) acts
  refine (LawfulStore.coherent hgood.sound).agreed ?_
  refine World.books_run (P := fun b => ∀ o, b.contents.Paired o) (World.good_start clock) ?_
    (fun _ _ _ hb => hb) (fun _ _ _ _ hb hstep => hstep.paired hb) acts
  rw [World.books_start]
  exact Contents.paired_empty

end Onboarding
