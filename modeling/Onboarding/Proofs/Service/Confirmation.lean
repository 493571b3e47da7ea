import Onboarding.Proofs.Service.World
/-!
# Confirmation — the stake goes first, and then the code counts

A confirmation that finds the right code transfers the stake before anything is stored.
So it has four outcomes: nothing, a stake refused, a stake whose confirmation could not
be stored, and a confirmation with its stake. The third is left to a store that is made
to fail (`record_cases`).
-/

namespace Onboarding

open StoreView

namespace Confirmation

variable {σ : Type} [Store σ] [LawfulStore σ] {w : World σ} {owner : Owner}

/-- The check finds the registration of the owner, unconfirmed and with that code. If the
store does not fail, it finds it unless there is none. -/
theorem check_cases (hw : w.Good) (owner : Owner) (code : String) :
    (∃ r, (contents w.store).registration owner = some r ∧ codesMatch r.code code = true ∧
        r.confirmedAt = none ∧ check owner code w = (.ok r, w)) ∨
      ∃ e, (failing w.store = [] → ∀ r, (contents w.store).registration owner = some r →
          codesMatch r.code code = true → r.isConfirmed = true) ∧
        check owner code w = (.error e, w) := by
  have hsearch := LawfulStore.registration owner hw.sound
  unfold check
  rcases ServiceM.find_cases (Store.registration · owner) w with
    ⟨found, hfound, hfind⟩ | ⟨e, hfound, hfind⟩
  swap
  · refine .inr ⟨_, fun hsafe r hr => ?_, Computation.bind_of_error hfind⟩
    rw [LawfulStore.registration_eq_ok hw.sound hsafe hr] at hfound
    cases hfound
  rw [Computation.bind_of_ok hfind]
  cases found with
  | none => exact .inr ⟨_, fun _ r hr => absurd hr (hsearch.of_missing hfound r), rfl⟩
  | some r =>
    have hr := hsearch.of_found (found?_eq_some hfound)
    -- what is read is what is stored
    have huniq : ∀ q, (contents w.store).registration owner = some q → q = r :=
      fun q hq => Option.some.inj (hq.symm.trans hr)
    dsimp only
    split
    · rename_i hcode
      refine .inr ⟨_, fun _ q hq hmatch => ?_, rfl⟩
      rw [huniq q hq] at hmatch
      simp [hmatch] at hcode
    rename_i hcode
    split
    · rename_i hconfirmed
      exact .inr ⟨_, fun _ q hq _ => huniq q hq ▸ hconfirmed, rfl⟩
    rename_i hopen
    refine .inl ⟨r, hr, by simpa using hcode, ?_, rfl⟩
    simpa [Registration.isConfirmed] using hopen

/-- The confirmation of an owner's registration is stored. It is not if there is none that
is open, or if the store is made to fail. -/
theorem record_cases (hw : w.Good) (owner : Owner) :
    (∃ r s, (contents w.store).registration owner = some r ∧ r.confirmedAt = none ∧
        Becomes w.store ((contents w.store).put { r with confirmedAt := some w.clock }) s ∧
        record owner w = (.ok (), { w with store := s })) ∨
      ∃ e, (∀ r, (contents w.store).registration owner = some r → r.confirmedAt = none →
          .setConfirmed ∈ failing w.store) ∧
        record owner w = (.error e, w) := by
  have hc := LawfulStore.coherent hw.sound
  have hwritten := LawfulStore.confirmRegistration owner w.clock hw.sound
  unfold record
  rw [Computation.bind_of_ok (ServiceM.now_apply w)]
  rcases hout : Store.confirmRegistration owner w.clock w.store with ⟨result, s⟩
  rw [hout] at hwritten
  -- an open registration could be confirmed
  have hopen : ∀ {r}, (contents w.store).registration owner = some r → r.confirmedAt = none →
      ∃ c, (contents w.store).confirm owner w.clock = .ok c := by
    intro r hr hfresh
    refine ⟨_, Contents.confirm_eq_ok.2 ⟨r, hr, ?_, rfl⟩⟩
    rw [Registration.isConfirmed, hfresh]
    rfl
  cases hwritten with
  | done sound holds failing denylist =>
    obtain ⟨r, hr, hfresh, hs⟩ := Contents.confirm_eq_ok.1 holds.symm
    exact .inl ⟨r, s, hr, by simpa [Registration.isConfirmed] using hfresh,
      ⟨sound, hs, failing, denylist⟩, Computation.bind_of_ok (ServiceM.write_of_ok hout)⟩
  | @refused e _ h =>
    rw [Computation.bind_of_ok (ServiceM.write_of_error hout)]
    have hnone : ∀ r, (contents w.store).registration owner = some r → r.confirmedAt = none →
        .setConfirmed ∈ failing w.store := by
      intro r hr hfresh
      obtain ⟨c, hok⟩ := hopen hr hfresh
      cases h.trans hok
    cases e <;> exact .inr ⟨_, hnone, rfl⟩
  | broken h =>
    refine .inr ⟨.store (.backend _), fun r hr _ => ?_,
      Computation.bind_of_ok (ServiceM.write_of_error hout)⟩
    -- an empty key cannot be: the owner of a held registration is a hash
    exact h.resolve_right (hc.isHash hr).text_ne

end Confirmation

section Calls

variable {σ : Type} [Store σ] [LawfulStore σ] {settings : Settings} {w : World σ}

/-- What a confirmation answers and the entry it makes. -/
inductive Confirming (owner : Owner) (code : String) : Except ServiceError Unit → Entry → Prop
  | done {r : Registration} (owner_eq : r.owner = owner) (code_eq : codesMatch r.code code = true) :
    Confirming owner code (.ok ()) (.confirmed r)
  | failed {e : ServiceError} : Confirming owner code (.error e) .nothing
  | refused {e : ServiceError} {r : Registration} (owner_eq : r.owner = owner)
      (code_eq : codesMatch r.code code = true) :
    Confirming owner code (.error e) (.stakeRefused r)
  | lost {e : ServiceError} {r : Registration} (owner_eq : r.owner = owner)
      (code_eq : codesMatch r.code code = true) :
    Confirming owner code (.error e) (.stakeLost r)

/-- **A confirmation makes one of four entries**, and answers success with the one. -/
theorem confirm_made (settings : Settings) (hw : w.Good) (owner : Owner) (code : String) :
    ∃ entry, Confirming owner code (confirm settings owner code w).1 entry ∧
      Made settings w (confirm settings owner code w).2 entry := by
  unfold confirm
  rcases Confirmation.check_cases hw owner code with
    ⟨r, hr, hcode, hfresh, hcheck⟩ | ⟨e, -, hcheck⟩
  swap
  · rw [Computation.bind_of_error hcheck]
    exact ⟨.nothing, .failed, .nothing hw w.random⟩
  rw [Computation.bind_of_ok hcheck]
  have hheld := (LawfulStore.coherent hw.sound).holds hr
  have howner := (LawfulStore.coherent hw.sound).owner_eq hr
  subst howner
  -- the stake goes out before the confirmation is stored
  rcases ServiceM.pay_cases (settings.stake r) hw.quiet with
    ⟨l, hpay, htransfers, hrefusals⟩ | ⟨e, l, -, hpay, htransfers, hrefusals⟩
  · rw [Computation.bind_of_ok (x := Confirmation.grantStake settings r.owner r) hpay]
    have hw₁ : World.Good { w with ledger := l } := ⟨hw.sound, hw.quiet⟩
    rcases Confirmation.record_cases hw₁ r.owner with
      ⟨q, s, hq, -, hbecomes, hrecord⟩ | ⟨e, hbroken, hrecord⟩
    · cases Option.some.inj (hq.symm.trans hr)
      rw [Computation.bind_of_ok hrecord]
      refine ⟨.confirmed r, .done rfl hcode, .of_becomes hw hbecomes ?_⟩
      rw [htransfers, hrefusals]
      exact .confirmed hheld hfresh
    · rw [Computation.bind_of_error hrecord]
      refine ⟨.stakeLost r, .lost rfl hcode, .of_becomes hw (.refl hw.sound) ?_⟩
      rw [htransfers, hrefusals]
      exact .stakeLost hheld hfresh (hbroken r hr hfresh)
  · rw [Computation.bind_of_error (x := Confirmation.grantStake settings r.owner r) hpay]
    refine ⟨.stakeRefused r, .refused rfl hcode, .of_becomes hw (.refl hw.sound) ?_⟩
    rw [htransfers, hrefusals]
    exact .stakeRefused hheld hfresh

end Calls

end Onboarding
