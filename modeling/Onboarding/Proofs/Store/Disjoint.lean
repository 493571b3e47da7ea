import Onboarding.Proofs.Store.Kind
/-!
# Disjoint writes — registrations and referrals do not get in each other's way

A confirmation reads and writes registrations and their indexes, and an installation reads
and writes referrals. So the two may be stored in either order: where each goes through on
its own, each goes through behind the other, and both orders lead to one state
(`StoreKind.confirm_install`). Not the same contents alone: the same bytes under the same
keys, and the same number of writes.
-/

namespace Onboarding

open StoreView

namespace TableStore

variable {s s' : TableStore} {o : Owner}

/-- What a confirmation needs, and what it changes. -/
theorem confirmRegistration_eq_ok {time : Timestamp} :
    confirmRegistration o time s = .ok s' ↔
      ∃ r, s.registrations[o]? = some r ∧ r.isConfirmed = false ∧ s' = { s with
        registrations := s.registrations.insert o { r with confirmedAt := some time } } := by
  unfold confirmRegistration TableStore.registration
  cases s.registrations[o]? with
  | none =>
    constructor
    · nofun
    · rintro ⟨_, ⟨⟩, -⟩
  | some r =>
    dsimp only [orMissing]
    split
    · rename_i hconfirmed
      constructor
      · nofun
      · rintro ⟨_, ⟨⟩, hfresh, -⟩
        cases hconfirmed.symm.trans hfresh
    · rename_i hfresh
      constructor
      · intro h
        exact ⟨r, rfl, by simpa using hfresh, (Except.ok.inj h).symm⟩
      · rintro ⟨_, ⟨⟩, -, rfl⟩
        rfl

/-- What it takes to move a referral, and what that changes. -/
theorem changeReferral_eq_ok {move : Referral → Except String Referral} :
    changeReferral o move s = .ok s' ↔
      ∃ f f', s.referrals[o]? = some f ∧ move f = .ok f' ∧
        s' = { s with referrals := s.referrals.insert o f' } := by
  unfold changeReferral TableStore.referral
  cases s.referrals[o]? with
  | none =>
    constructor
    · nofun
    · rintro ⟨_, _, ⟨⟩, -⟩
  | some f =>
    dsimp only [orMissing]
    split <;> rename_i hmove
    · constructor
      · nofun
      · rintro ⟨_, _, ⟨⟩, hok, -⟩
        cases hmove.symm.trans hok
    · constructor
      · intro h
        exact ⟨f, _, rfl, hmove, (Except.ok.inj h).symm⟩
      · rintro ⟨_, _, ⟨⟩, hok, rfl⟩
        cases hmove.symm.trans hok
        rfl

/-- **A confirmation and a move are stored in either order.** -/
theorem confirm_move {s₁ s₂ : TableStore} (hquiet : s.failing = []) {p : Owner}
    {time : Timestamp} {op op' : StoreOp} {move : Referral → Except String Referral}
    (hconfirm : write op (confirmRegistration o time) s = (.ok (), s₁))
    (hmove : write op' (changeReferral p move) s = (.ok (), s₂)) :
    ∃ s', write op (confirmRegistration o time) s₂ = (.ok (), s') ∧
      write op' (changeReferral p move) s₁ = (.ok (), s') := by
  obtain ⟨_, hconfirmed, rfl⟩ := (write_eq_ok hquiet).1 hconfirm
  obtain ⟨_, hmoved, rfl⟩ := (write_eq_ok hquiet).1 hmove
  obtain ⟨r, hr, hfresh, rfl⟩ := confirmRegistration_eq_ok.1 hconfirmed
  obtain ⟨f, f', hf, hf', rfl⟩ := changeReferral_eq_ok.1 hmoved
  refine ⟨_, (write_eq_ok ?_).2 ⟨_, confirmRegistration_eq_ok.2 ⟨r, ?_, hfresh, rfl⟩, rfl⟩,
    (write_eq_ok ?_).2 ⟨_, changeReferral_eq_ok.2 ⟨f, f', ?_, hf', rfl⟩, rfl⟩⟩ <;> assumption

end TableStore

namespace IndexedStore

variable {s s' : IndexedStore} {o : Owner}

/-- What it takes to move a referral, and what that changes. -/
theorem changeReferral_eq_ok {move : Referral → Except String Referral} :
    changeReferral o move s = (.ok (), s') ↔
      ∃ f f', s.referral o = .ok f ∧ move f = .ok f' ∧ KeyTable.IsKey (ownerKey o) ∧
        s' = { s with
          referrals := s.referrals.insert (ownerKey o) (Referral.schema.encode f') } := by
  constructor
  · intro h
    unfold changeReferral at h
    obtain ⟨f, t, hask, h⟩ := Computation.bind_eq_ok h
    obtain rfl : s = t := congrArg Prod.snd hask
    have hf : s.referral o = .ok f := congrArg Prod.fst hask
    cases hmove : move f with
    | error reason =>
      simp only [hmove] at h
      cases h
    | ok f' =>
      simp only [hmove] at h
      have hkey := isKey_of_put h
      rw [put_eq _ hkey] at h
      cases h
      exact ⟨f, f', hf, hmove, hkey, rfl⟩
  · rintro ⟨f, f', hf, hf', hkey, rfl⟩
    have hask : ask (·.referral o) s = (.ok f, s) := by rw [ask, hf]
    unfold changeReferral
    rw [Computation.bind_of_ok hask]
    simp only [hf']
    exact put_eq .referrals hkey _ s

/-- **A confirmation and a move are stored in either order.** -/
theorem confirm_move {s₁ s₂ : IndexedStore} (hs : Filed s) {p : Owner} {time : Timestamp}
    {move : Referral → Except String Referral}
    (hconfirm : confirmRegistration o time s = (.ok (), s₁))
    (hmove : changeReferral p move s = (.ok (), s₂)) :
    ∃ s', confirmRegistration o time s₂ = (.ok (), s') ∧
      changeReferral p move s₁ = (.ok (), s') := by
  obtain ⟨r, hr, hfresh, hput⟩ := hs.listed.confirmRegistration_eq_ok.1 hconfirm
  have hfits := ((hs.coherent.storable (hs.listed.keyed.holds hr)).confirmedAt (some time)).fits
  obtain ⟨hplace, rfl⟩ := (hs.listed.putRegistration_eq_ok hfits).1 hput
  obtain ⟨f, f', hf, hf', hkey, rfl⟩ := changeReferral_eq_ok.1 hmove
  -- another referral is none of the business of the registrations and their codes
  have hlisted : Listed { s with
      referrals := s.referrals.insert (ownerKey p) (Referral.schema.encode f') } :=
    ⟨hs.listed.registrations, hs.listed.codes⟩
  exact ⟨_, hlisted.confirmRegistration_eq_ok.2 ⟨r, hr, hfresh,
      (hlisted.putRegistration_eq_ok hfits).2 ⟨hplace, rfl⟩⟩,
    changeReferral_eq_ok.2 ⟨f, f', hf, hf', hkey, rfl⟩⟩

end IndexedStore

/-- **A confirmation and an installation are stored in either order**, by either store, if it
does not fail. -/
theorem StoreKind.confirm_install {kind : StoreKind} {s s₁ s₂ : kind.State} (hs : Sound s)
    (hsafe : failing s = []) {o p : Owner} {time time' : Timestamp}
    (hconfirm : Store.confirmRegistration o time s = (.ok (), s₁))
    (hinstall : Store.installReferral p time' s = (.ok (), s₂)) :
    ∃ s', Store.confirmRegistration o time s₂ = (.ok (), s') ∧
      Store.installReferral p time' s₁ = (.ok (), s') := by
  cases kind with
  | table => exact TableStore.confirm_move hsafe hconfirm hinstall
  | indexed => exact IndexedStore.confirm_move hs.filed hconfirm hinstall

end Onboarding
