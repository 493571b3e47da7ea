import Onboarding.Proofs.Service.Books
/-!
# Evolution — records only grow

No entry takes a record away, and none changes a record that is confirmed. What an entry
may still change is little: the time and the inviter of a registration, and how far a
referral got. `Step.evolves` says so for all entries at once; the lemmas behind it say
where a record that is confirmed came from.
-/

namespace Onboarding

/-- A later form of a registration. -/
structure Registration.Grows (r r' : Registration) : Prop where
  owner_eq : r'.owner = r.owner
  email_eq : r'.email = r.email
  address_eq : r'.address = r.address
  kept : r.isConfirmed = true → r' = r

/-- A later form of a referral. -/
structure Referral.Grows (f f' : Referral) : Prop where
  receiver_eq : f'.receiver = f.receiver
  sender_eq : f'.sender = f.sender
  kept : f.status = .confirmed → f' = f

theorem Registration.Grows.refl (r : Registration) : r.Grows r := ⟨rfl, rfl, rfl, fun _ => rfl⟩

theorem Referral.Grows.refl (f : Referral) : f.Grows f := ⟨rfl, rfl, fun _ => rfl⟩

theorem Registration.Grows.trans {p q r : Registration} (hpq : p.Grows q) (hqr : q.Grows r) :
    p.Grows r where
  owner_eq := hqr.owner_eq.trans hpq.owner_eq
  email_eq := hqr.email_eq.trans hpq.email_eq
  address_eq := hqr.address_eq.trans hpq.address_eq
  kept h := by
    have hq := hpq.kept h
    subst hq
    exact hqr.kept h

theorem Referral.Grows.trans {f g h : Referral} (hfg : f.Grows g) (hgh : g.Grows h) :
    f.Grows h where
  receiver_eq := hgh.receiver_eq.trans hfg.receiver_eq
  sender_eq := hgh.sender_eq.trans hfg.sender_eq
  kept hf := by
    have hg := hfg.kept hf
    subst hg
    exact hgh.kept hf

/-- A registration that is not confirmed may change in what its owner did not choose. -/
theorem Registration.Grows.of_fresh {r r' : Registration} (h : r.confirmedAt = none)
    (howner : r'.owner = r.owner) (hemail : r'.email = r.email)
    (haddress : r'.address = r.address) : r.Grows r' :=
  ⟨howner, hemail, haddress, fun hr => by simp [isConfirmed, h] at hr⟩

/-- Whoever is invited was not invited before. -/
theorem Invited.referral_eq_none {c : Contents} {receiver sender : Owner} {code? : Option String}
    (h : Invited c receiver code? (some sender)) : c.referral receiver = none := by
  cases h with
  | invited _ _ first => exact first

/-- An invitation is in the way of no referral that was there. -/
theorem Invited.referral_invite {c c' : Contents} {receiver o : Owner} {code? : Option String}
    {sender? : Option Owner} {now : Timestamp} {f : Referral}
    (h : Invited c receiver code? sender?) (hreferral : c'.referral = c.referral)
    (hf : c.referral o = some f) : (c'.invite receiver now sender?).referral o = some f := by
  cases sender? with
  | none => exact (congrFun hreferral o).trans hf
  | some sender =>
    rw [Contents.invite, Contents.referral_refer_of_ne, hreferral, hf]
    rintro rfl
    exact nomatch h.referral_eq_none.symm.trans hf

namespace Contents

/-- Later contents: every record is still there, perhaps in a later form. -/
structure Evolves (c c' : Contents) : Prop where
  registration : ∀ {o r}, c.registration o = some r → ∃ r', c'.registration o = some r' ∧ r.Grows r'
  referral : ∀ {o f}, c.referral o = some f → ∃ f', c'.referral o = some f' ∧ f.Grows f'

namespace Evolves

variable {c c' : Contents}

theorem refl (c : Contents) : c.Evolves c :=
  ⟨fun h => ⟨_, h, .refl _⟩, fun h => ⟨_, h, .refl _⟩⟩

theorem trans {c'' : Contents} (h : c.Evolves c') (h' : c'.Evolves c'') : c.Evolves c'' where
  registration hr := by
    obtain ⟨r', hr', hgrows⟩ := h.registration hr
    obtain ⟨r'', hr'', hgrows'⟩ := h'.registration hr'
    exact ⟨r'', hr'', hgrows.trans hgrows'⟩
  referral hf := by
    obtain ⟨f', hf', hgrows⟩ := h.referral hf
    obtain ⟨f'', hf'', hgrows'⟩ := h'.referral hf'
    exact ⟨f'', hf'', hgrows.trans hgrows'⟩

/-- A first registration hides no other one. -/
theorem put_of_absent {r : Registration} (h : c.registration r.owner = none) :
    c.Evolves (c.put r) where
  registration hq := ⟨_, registration_put_of_absent hq h, .refl _⟩
  referral hf := ⟨_, hf, .refl _⟩

/-- A registration gives way to a later form of it. -/
theorem put {r r' : Registration} (hr : c.Holds r) (h : r.Grows r') : c.Evolves (c.put r') where
  registration {o q} hq := by
    rcases registration_put_of_held hq hr h.owner_eq with ⟨rfl, hq'⟩ | hq'
    · exact ⟨r', hq', h⟩
    · exact ⟨q, hq', .refl q⟩
  referral hf := ⟨_, hf, .refl _⟩

/-- A referral gives way to a later form of it. -/
theorem refer {f f' : Referral} (hf : c.Refers f) (h : f.Grows f') : c.Evolves (c.refer f') where
  registration hr := ⟨_, hr, .refl _⟩
  referral {o g} hg := by
    rcases referral_refer_of_held hg hf h.receiver_eq with ⟨rfl, hg'⟩ | hg'
    · exact ⟨f', hg', h⟩
    · exact ⟨g, hg', .refl g⟩

/-- Inviting someone keeps what evolved before. -/
theorem invite (h : c.Evolves c') {receiver : Owner} {code? : Option String}
    {sender? : Option Owner} {now : Timestamp} (hreferral : c'.referral = c.referral)
    (hinvited : Invited c receiver code? sender?) :
    c.Evolves (c'.invite receiver now sender?) where
  registration hr := by
    rw [registration_invite]
    exact h.registration hr
  referral {o f} hf := ⟨f, hinvited.referral_invite hreferral hf, .refl f⟩

end Evolves

end Contents

/-- A referral that is past its start was not started by an invitation. -/
theorem Contents.referral_of_invite {c : Contents} {receiver o : Owner} {now : Timestamp}
    {sender? : Option Owner} {f : Referral}
    (h : (c.invite receiver now sender?).referral o = some f)
    (hstatus : f.status ≠ .registered) : c.referral o = some f := by
  cases sender? with
  | none => exact h
  | some sender =>
    rw [invite, referral_refer] at h
    split at h
    · cases h
      exact absurd rfl hstatus
    · exact h

namespace Step

variable {settings : Settings} {now : Timestamp} {b b' : Books} {entry : Entry}

theorem failing_eq (h : Step settings now b entry b') : b'.failing = b.failing := by
  cases h <;> rfl

/-- **No entry takes a record away**, or changes one that is confirmed. -/
theorem evolves (h : Step settings now b entry b') : b.contents.Evolves b'.contents := by
  cases h with
  | nothing | stakeRefused _ _ | stakeLost _ _ _ | grantRefused _ _ _ | grantLost _ _ _ =>
    exact .refl _
  | enrolled _ _ _ absent _ _ _ invited =>
    exact (Contents.Evolves.put_of_absent absent).invite rfl invited
  | renewed held fresh _ _ invited | tracked held fresh _ invited =>
    refine Contents.Evolves.invite ?_ rfl invited
    exact .put held (.of_fresh fresh rfl rfl rfl)
  | confirmed held fresh => exact .put held (.of_fresh fresh rfl rfl rfl)
  | installed held start _ =>
    exact .refer held ⟨rfl, rfl, fun hf => by rw [start] at hf; cases hf⟩
  | paid held installed _ _ _ _ payout _ =>
    exact .refer held ⟨rfl, rfl, fun hf => by rw [installed] at hf; cases hf⟩
  | granted _ _ _ _ _ absent _ _ _ => exact .put_of_absent absent

/-- Where a confirmed registration came from: it was there, or the entry confirmed it, or
granted it. -/
theorem registration_confirmed (h : Step settings now b entry b') {o : Owner} {r : Registration}
    (hr : b'.contents.registration o = some r) (hconfirmed : r.isConfirmed = true) :
    b.contents.registration o = some r ∨
      (∃ q, entry = .confirmed q ∧ q.owner = o ∧ r = { q with confirmedAt := some now }) ∨
      (entry = .granted r ∧ r.owner = o) := by
  cases h with
  | nothing | stakeRefused _ _ | stakeLost _ _ _ | grantRefused _ _ _ | grantLost _ _ _
  | installed _ _ _ | paid _ _ _ _ _ _ _ _ => exact .inl hr
  | enrolled _ fresh _ _ _ _ _ _ | renewed _ fresh _ _ _ | tracked _ fresh _ _ =>
    rw [Contents.registration_invite, Contents.registration_put] at hr
    split at hr
    · cases hr
      simp [Registration.isConfirmed, fresh] at hconfirmed
    · exact .inl hr
  | confirmed _ _ =>
    rw [Contents.registration_put] at hr
    split at hr
    · rename_i ho
      cases hr
      exact .inr (.inl ⟨_, rfl, ho.symm, rfl⟩)
    · exact .inl hr
  | granted _ _ _ _ _ _ _ _ _ =>
    rw [Contents.registration_put] at hr
    split at hr
    · rename_i ho
      cases hr
      exact .inr (.inr ⟨rfl, ho.symm⟩)
    · exact .inl hr

/-- Where a confirmed referral came from: it was there, or the entry paid it. -/
theorem referral_confirmed (h : Step settings now b entry b') {o : Owner} {f : Referral}
    (hf : b'.contents.referral o = some f) (hstatus : f.status = .confirmed) :
    b.contents.referral o = some f ∨ ∃ p, entry = .paid p ∧ p.receiver = o := by
  cases h with
  | nothing | stakeRefused _ _ | stakeLost _ _ _ | grantRefused _ _ _ | grantLost _ _ _
  | confirmed _ _ | granted _ _ _ _ _ _ _ _ _ => exact .inl hf
  | enrolled _ _ _ _ _ _ _ _ | renewed _ _ _ _ _ | tracked _ _ _ _ =>
    have hold := Contents.referral_of_invite hf (by rw [hstatus]; decide)
    exact .inl hold
  | installed _ _ _ =>
    rw [Contents.referral_refer] at hf
    split at hf
    · cases hf
      cases hstatus
    · exact .inl hf
  | paid _ _ _ _ _ _ payout _ =>
    rw [Contents.referral_refer] at hf
    split at hf
    · rename_i ho
      exact .inr ⟨_, rfl, by rw [payout, ho]⟩
    · exact .inl hf

/-- A first registration is stored. -/
theorem holds_enrolled {r : Registration} (h : Step settings now b (.enrolled r) b') :
    b'.contents.Holds r := by
  cases h with
  | enrolled _ _ _ _ _ _ _ _ =>
    rw [Contents.Holds, Contents.registration_invite]
    exact Contents.registration_put_self _ _

/-- A renewed registration is stored. -/
theorem holds_renewed {r : Registration} (h : Step settings now b (.renewed r) b') :
    b'.contents.Holds r := by
  cases h with
  | renewed _ _ _ _ _ =>
    rw [Contents.Holds, Contents.registration_invite]
    exact Contents.registration_put_self _ _

/-- What a confirmation stores. -/
theorem of_confirmed {r : Registration} (h : Step settings now b (.confirmed r) b') :
    b.contents.Holds r ∧ r.confirmedAt = none ∧
      b'.contents = b.contents.put { r with confirmedAt := some now } := by
  cases h with
  | confirmed held fresh => exact ⟨held, fresh, rfl⟩

/-- What an installation stores. -/
theorem of_installed {f : Referral} (h : Step settings now b (.installed f) b') :
    b.contents.Refers f ∧ f.status = .registered ∧
      b'.contents = b.contents.refer { f with status := .installed, installedAt := some now } := by
  cases h with
  | installed held start _ => exact ⟨held, start, rfl⟩

/-- A referral that has left its start does not come back to it. -/
theorem started (h : Step settings now b entry b') {o : Owner} {f : Referral}
    (hf : b.contents.referral o = some f) (hstatus : f.status ≠ .registered) :
    ∃ f', b'.contents.referral o = some f' ∧ f'.status ≠ .registered := by
  cases h with
  | nothing | stakeRefused _ _ | stakeLost _ _ _ | grantRefused _ _ _ | grantLost _ _ _
  | confirmed _ _ | granted _ _ _ _ _ _ _ _ _ => exact ⟨f, hf, hstatus⟩
  | enrolled _ _ _ _ _ _ _ invited | renewed _ _ _ _ invited | tracked _ _ _ invited =>
    exact ⟨f, invited.referral_invite rfl hf, hstatus⟩
  | installed _ _ _ =>
    rw [Contents.referral_refer]
    split
    · exact ⟨_, rfl, nofun⟩
    · exact ⟨f, hf, hstatus⟩
  | paid _ _ _ _ _ _ _ _ =>
    rw [Contents.referral_refer]
    split
    · exact ⟨_, rfl, nofun⟩
    · exact ⟨f, hf, hstatus⟩

end Step

end Onboarding
