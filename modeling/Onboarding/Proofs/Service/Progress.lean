import Mathlib.Data.List.Chain
import Onboarding.Proofs.Service.Constancy
/-!
# Progress — how far a referral came, and when

A stored referral is written over as a whole: when the receiver installs the app, and when
it is paid. `Contents.Advances` lists what an act does to it, and `Step.advances` says that
the entries do nothing else. So a referral only moves on, one status at a time, and what is
set of it is what its status says (`World.Progresses`).

Times are taken from the clock, which may be set back. As long as it is not, the times of a
referral are in the order of its statuses (`Contents.Timely`).
-/

namespace Onboarding

open StoreView

/-! ## Referrals -/

namespace Referral

/-- A referral whose times and rewards are set as far as it came. -/
structure Formed (f : Referral) : Prop where
  installedAt : f.installedAt.isSome = true ↔ f.status ≠ .registered
  confirmedAt : f.confirmedAt.isSome = true ↔ f.status = .confirmed
  senderReward : f.senderReward.isSome = true ↔ f.status = .confirmed
  receiverReward : f.receiverReward.isSome = true ↔ f.status = .confirmed

/-- A referral as it may be stored later: it is between the same two since the same time,
it has not moved back, and nothing that was set once is set again. -/
structure Continues (f f' : Referral) : Prop where
  sender_eq : f'.sender = f.sender
  receiver_eq : f'.receiver = f.receiver
  registeredAt_eq : f'.registeredAt = f.registeredAt
  status_le : f.status.toFin ≤ f'.status.toFin
  installedAt_eq : ∀ t, f.installedAt = some t → f'.installedAt = some t
  confirmedAt_eq : ∀ t, f.confirmedAt = some t → f'.confirmedAt = some t
  senderReward_eq : ∀ a, f.senderReward = some a → f'.senderReward = some a
  receiverReward_eq : ∀ a, f.receiverReward = some a → f'.receiverReward = some a

theorem formed_start (sender receiver : Owner) (time : Timestamp) :
    (start sender receiver time).Formed := by
  constructor <;> simp [start]

namespace Continues

theorem refl (f : Referral) : f.Continues f :=
  ⟨rfl, rfl, rfl, Fin.le_refl _, fun _ h => h, fun _ h => h, fun _ h => h, fun _ h => h⟩

theorem trans {f g h : Referral} (hfg : f.Continues g) (hgh : g.Continues h) :
    f.Continues h where
  sender_eq := hgh.sender_eq.trans hfg.sender_eq
  receiver_eq := hgh.receiver_eq.trans hfg.receiver_eq
  registeredAt_eq := hgh.registeredAt_eq.trans hfg.registeredAt_eq
  status_le := Fin.le_trans hfg.status_le hgh.status_le
  installedAt_eq t ht := hgh.installedAt_eq t (hfg.installedAt_eq t ht)
  confirmedAt_eq t ht := hgh.confirmedAt_eq t (hfg.confirmedAt_eq t ht)
  senderReward_eq a ha := hgh.senderReward_eq a (hfg.senderReward_eq a ha)
  receiverReward_eq a ha := hgh.receiverReward_eq a (hfg.receiverReward_eq a ha)

end Continues

end Referral

/-! ## Entries -/

/-- What an entry may make of a referral that was stored before. -/
inductive Contents.Advances (c : Contents) (now : Timestamp) (f : Referral) : Referral → Prop
  | stays : Advances c now f f
  | installed (start : f.status = .registered) :
    Advances c now f { f with status := .installed, installedAt := some now }
  /-- Whoever is paid is confirmed. -/
  | confirmed {r : Registration} {a b : TokenAmount} (installed : f.status = .installed)
      (receiver : c.registration f.receiver = some r) (ready : r.isConfirmed = true) :
    Advances c now f { f with
      status := .confirmed
      confirmedAt := some now
      senderReward := some a
      receiverReward := some b }

namespace Contents.Advances

variable {c : Contents} {now : Timestamp} {f f' : Referral}

theorem receiver_eq (h : c.Advances now f f') : f'.receiver = f.receiver := by
  cases h <;> rfl

/-- **A referral stays or moves to the next status.** -/
theorem status_next (h : c.Advances now f f') : f' = f ∨ f.status.next? = some f'.status := by
  cases h with
  | stays => exact .inl rfl
  | installed start => exact .inr (by rw [start]; rfl)
  | confirmed installed _ _ => exact .inr (by rw [installed]; rfl)

/-- **What is set goes with the status**, and goes on to. -/
theorem formed (h : c.Advances now f f') (hf : f.Formed) : f'.Formed := by
  cases h with
  | stays => exact hf
  | installed start =>
    obtain ⟨-, hconfirmed, hsender, hreceiver⟩ := hf
    rw [start] at hconfirmed hsender hreceiver
    exact ⟨by simp, by simpa using hconfirmed, by simpa using hsender, by simpa using hreceiver⟩
  | confirmed installed _ _ =>
    have hinstalled := hf.installedAt.2 (by rw [installed]; decide)
    exact ⟨by simpa using hinstalled, by simp, by simp, by simp⟩

/-- **A referral goes on** by every entry: what an entry sets was not set before. -/
theorem continues (h : c.Advances now f f') (hf : f.Formed) : f.Continues f' := by
  cases h with
  | stays => exact .refl f
  | installed start =>
    have hstatus : f.status.toFin ≤ ReferralStatus.installed.toFin := by rw [start]; decide
    refine ⟨rfl, rfl, rfl, hstatus, fun t ht => ?_, fun _ h => h, fun _ h => h, fun _ h => h⟩
    have hset := hf.installedAt.1 (by rw [ht]; rfl)
    exact absurd start hset
  | confirmed installed _ _ =>
    have hopen : f.status ≠ .confirmed := by rw [installed]; decide
    have hstatus : f.status.toFin ≤ ReferralStatus.confirmed.toFin := by rw [installed]; decide
    refine ⟨rfl, rfl, rfl, hstatus, fun _ h => h, fun t ht => ?_, fun a ha => ?_, fun a ha => ?_⟩
    · exact absurd (hf.confirmedAt.1 (by rw [ht]; rfl)) hopen
    · exact absurd (hf.senderReward.1 (by rw [ha]; rfl)) hopen
    · exact absurd (hf.receiverReward.1 (by rw [ha]; rfl)) hopen

end Contents.Advances

namespace Contents

variable {c c' : Contents} {now : Timestamp} {o receiver : Owner} {f f' g : Referral}

theorem advances_refer_of_held (hg : c.referral o = some g) (hf : c.Refers f)
    (hadvance : c.Advances now f f') :
    ∃ g', (c.refer f').referral o = some g' ∧ c.Advances now g g' := by
  rcases referral_refer_of_held hg hf hadvance.receiver_eq with ⟨rfl, hg'⟩ | hg'
  · exact ⟨f', hg', hadvance⟩
  · exact ⟨g, hg', .stays⟩

/-- Nobody is referred who is not invited, and whoever is invited is at the start. -/
theorem referral_invite_of_none {sender? : Option Owner}
    (hf : (c.invite receiver now sender?).referral o = some f) (hnone : c.referral o = none) :
    ∃ sender, f = .start sender o now := by
  cases sender? with
  | none => cases hnone.symm.trans hf
  | some sender =>
    rw [invite, referral_refer] at hf
    split at hf
    · rename_i ho
      cases hf
      exact ⟨sender, by rw [ho]; rfl⟩
    · cases hnone.symm.trans hf

/-- Writing a referral over brings in no other one. -/
theorem referral_ne_none_of_refer (hg : (c.refer f').referral o = some g) (hf : c.Refers f)
    (hreceiver : f'.receiver = f.receiver) : c.referral o ≠ none := by
  intro hnone
  rw [referral_refer_of_ne, hnone] at hg
  · cases hg
  · rintro rfl
    rw [hreceiver] at hnone
    cases hnone.symm.trans hf

end Contents

namespace Step

variable {settings : Settings} {now : Timestamp} {b b' : Books} {entry : Entry} {o : Owner}
  {f : Referral}

/-- **A stored referral advances in these ways only**, and is never taken away. -/
theorem advances (h : Step settings now b entry b') (hf : b.contents.referral o = some f) :
    ∃ f', b'.contents.referral o = some f' ∧ b.contents.Advances now f f' := by
  cases h with
  | nothing | stakeRefused _ _ | stakeLost _ _ _ | grantRefused _ _ _ | grantLost _ _ _
  | confirmed _ _ | granted _ _ _ _ _ _ _ _ _ => exact ⟨f, hf, .stays⟩
  | enrolled _ _ _ _ _ _ _ invited | renewed _ _ _ _ invited | tracked _ _ _ invited =>
    exact ⟨f, invited.referral_invite rfl hf, .stays⟩
  | installed held start _ => exact Contents.advances_refer_of_held hf held (.installed start)
  | paid held installed receiver ready _ _ _ _ =>
    exact Contents.advances_refer_of_held hf held (.confirmed installed receiver ready)

/-- **A referral that was not there is at its start**, since now. -/
theorem starts (h : Step settings now b entry b') (hnone : b.contents.referral o = none)
    (hf : b'.contents.referral o = some f) : ∃ sender, f = .start sender o now := by
  cases h with
  | nothing | stakeRefused _ _ | stakeLost _ _ _ | grantRefused _ _ _ | grantLost _ _ _
  | confirmed _ _ | granted _ _ _ _ _ _ _ _ _ => cases hnone.symm.trans hf
  | enrolled _ _ _ _ _ _ _ _ | renewed _ _ _ _ _ | tracked _ _ _ _ =>
    exact Contents.referral_invite_of_none hf hnone
  | installed held _ _ | paid held _ _ _ _ _ _ _ =>
    exact absurd hnone (Contents.referral_ne_none_of_refer hf held rfl)

/-- Referrals stay formed through every entry. -/
theorem formed (h : Step settings now b entry b')
    (hb : ∀ o f, b.contents.referral o = some f → f.Formed)
    (hf : b'.contents.referral o = some f) : f.Formed := by
  cases hold : b.contents.referral o with
  | none =>
    obtain ⟨sender, rfl⟩ := h.starts hold hf
    exact Referral.formed_start sender o now
  | some g =>
    obtain ⟨g', hg', hadvance⟩ := h.advances hold
    cases hg'.symm.trans hf
    exact hadvance.formed (hb o g hold)

end Step

/-! ## Whole runs -/

/-- How the referrals of a world came to be what they are, and what becomes of them. -/
structure World.Progresses {σ : Type} [Store σ] [LawfulStore σ] (settings : Settings)
    (w : World σ) : Prop where
  formed : ∀ o f, (contents w.store).referral o = some f → f.receiver = o ∧ f.Formed
  /-- A new referral is at its start. -/
  started : ∀ a o f, (contents w.store).referral o = none →
    (contents (w.act settings a).store).referral o = some f →
    ∃ sender, f = .start sender o w.clock
  /-- An act leaves a referral alone or moves it to the next status. -/
  stepped : ∀ a o f, (contents w.store).referral o = some f →
    ∃ f', (contents (w.act settings a).store).referral o = some f' ∧
      (f' = f ∨ f.Continues f' ∧ f.status.next? = some f'.status)
  /-- A referral is there for good, and only goes on. -/
  kept : ∀ acts o f, (contents w.store).referral o = some f →
    ∃ f', (contents (w.run settings acts).store).referral o = some f' ∧ f.Continues f'

section Runs

variable {σ : Type} [Store σ] [LawfulStore σ] {settings : Settings} {w : World σ}

/-- Referrals are formed in every run. -/
theorem World.formed_run (settings : Settings) (hw : w.Good)
    (hformed : ∀ o f, (contents w.store).referral o = some f → f.Formed) (acts : List Act) :
    ∀ o f, (contents (w.run settings acts).store).referral o = some f → f.Formed :=
  World.books_run (P := fun b => ∀ o f, b.contents.referral o = some f → f.Formed) hw hformed
    (fun _ _ _ h => h) (fun _ _ _ _ hb hstep _ _ hf => hstep.formed hb hf) acts

theorem World.formed_start (clock : Timestamp) :
    ∀ o f, (contents (World.start clock : World σ).store).referral o = some f → f.Formed := by
  rw [World.contents_start]
  exact fun o f hf => nomatch hf

/-- What one act makes of a referral. -/
theorem World.advances_act (settings : Settings) (hw : w.Good) (a : Act) {o : Owner}
    {f : Referral} (hf : (contents w.store).referral o = some f) :
    ∃ f', (contents (w.act settings a).store).referral o = some f' ∧
      (contents w.store).Advances w.clock f f' := by
  obtain ⟨b, entry, hcontents, -, hstep, -⟩ := act_registers settings hw a
  rw [← hcontents] at hf ⊢
  exact hstep.advances hf

/-- **A referral goes on** through every run. -/
theorem World.continues_run (settings : Settings) (hw : w.Good)
    (hformed : ∀ o f, (contents w.store).referral o = some f → f.Formed) {o : Owner} {f : Referral}
    (hf : (contents w.store).referral o = some f) (acts : List Act) :
    ∃ f', (contents (w.run settings acts).store).referral o = some f' ∧ f.Continues f' := by
  induction acts using List.reverseRecOn with
  | nil => exact ⟨f, hf, .refl f⟩
  | append_singleton acts a ih =>
    obtain ⟨g, hg, hcontinues⟩ := ih
    obtain ⟨g', hg', hadvance⟩ := World.advances_act settings (World.good_run settings hw acts) a hg
    have hg'' := World.formed_run settings hw hformed acts o g hg
    rw [World.run_concat]
    exact ⟨g', hg', hcontinues.trans (hadvance.continues hg'')⟩

theorem World.Good.progresses (hw : w.Good)
    (hformed : ∀ o f, (contents w.store).referral o = some f → f.Formed) :
    w.Progresses settings where
  formed o f hf := ⟨(LawfulStore.coherent hw.sound).receiver_eq hf, hformed o f hf⟩
  started a o f hnone hf := by
    obtain ⟨b, entry, hcontents, -, hstep, -⟩ := act_registers settings hw a
    rw [← hcontents] at hnone
    exact hstep.starts hnone hf
  stepped a o f hf := by
    obtain ⟨f', hf', hadvance⟩ := World.advances_act settings hw a hf
    have hcontinues := hadvance.continues (hformed o f hf)
    exact ⟨f', hf', hadvance.status_next.imp_right fun hnext => ⟨hcontinues, hnext⟩⟩
  kept acts _ _ hf := World.continues_run settings hw hformed hf acts

end Runs

/-! ## A clock that goes forward -/

/-- The times of referrals are in the order of their statuses, and whoever was paid was
confirmed before. -/
structure Contents.Timely (c : Contents) : Prop where
  installed : ∀ o f t, c.referral o = some f → f.installedAt = some t →
    f.registeredAt.seconds ≤ t.seconds
  confirmed : ∀ o f, c.referral o = some f → f.status = .confirmed →
    ∃ t u, f.installedAt = some t ∧ f.confirmedAt = some u ∧ t.seconds ≤ u.seconds ∧
      ∃ r v, c.registration f.receiver = some r ∧ r.confirmedAt = some v ∧ v.seconds ≤ u.seconds

/-- The times of a referral, none of which is ahead of the clock. -/
structure Contents.Ordered (c : Contents) (now : Timestamp) (f : Referral) : Prop where
  registeredAt : f.registeredAt.seconds ≤ now.seconds
  installedAt : ∀ t, f.installedAt = some t →
    f.registeredAt.seconds ≤ t.seconds ∧ t.seconds ≤ now.seconds
  confirmedAt : ∀ u, f.confirmedAt = some u → u.seconds ≤ now.seconds ∧
    (∃ t, f.installedAt = some t ∧ t.seconds ≤ u.seconds) ∧
    ∃ r v, c.registration f.receiver = some r ∧ r.confirmedAt = some v ∧ v.seconds ≤ u.seconds

/-- Contents whose referrals are formed and whose times are in order, none ahead of the
clock. -/
structure Contents.TimelyAt (c : Contents) (now : Timestamp) : Prop where
  confirmedAt : ∀ o r v, c.registration o = some r → r.confirmedAt = some v →
    v.seconds ≤ now.seconds
  formed : ∀ o f, c.referral o = some f → f.Formed
  ordered : ∀ o f, c.referral o = some f → c.Ordered now f

namespace Contents

variable {c c' : Contents} {now later : Timestamp} {f f' : Referral}

/-- What is in order stays so as the clock goes on. -/
theorem TimelyAt.mono (h : c.TimelyAt now) (hle : now.seconds ≤ later.seconds) :
    c.TimelyAt later where
  confirmedAt o r v hr hv := UInt64.le_trans (h.confirmedAt o r v hr hv) hle
  formed := h.formed
  ordered o f hf := by
    obtain ⟨hregistered, hinstalled, hconfirmed⟩ := h.ordered o f hf
    refine ⟨UInt64.le_trans hregistered hle, fun t ht => ?_, fun u hu => ?_⟩
    · exact (hinstalled t ht).imp_right (UInt64.le_trans · hle)
    · exact (hconfirmed u hu).imp_left (UInt64.le_trans · hle)

/-- **What an entry makes of a referral is in order**: what it sets, it sets to the reading
of the clock. -/
theorem Advances.ordered (h : c.Advances now f f') (hc : c.TimelyAt now) (hf : c.Ordered now f)
    (hformed : f.Formed) : c.Ordered now f' := by
  cases h with
  | stays => exact hf
  | installed start =>
    refine ⟨hf.registeredAt, ?_, fun u hu => ?_⟩
    · rintro _ ⟨⟩
      exact ⟨hf.registeredAt, UInt64.le_refl _⟩
    · have hconfirmed := hformed.confirmedAt.1 (by rw [show f.confirmedAt = some u from hu]; rfl)
      cases start.symm.trans hconfirmed
  | @confirmed r a b installed receiver ready =>
    refine ⟨hf.registeredAt, hf.installedAt, ?_⟩
    rintro _ ⟨⟩
    have hinstalled := hformed.installedAt.2 (by rw [installed]; decide)
    obtain ⟨t, ht⟩ := Option.isSome_iff_exists.1 hinstalled
    obtain ⟨v, hv⟩ := Option.isSome_iff_exists.1 ready
    exact ⟨UInt64.le_refl _, ⟨t, ht, (hf.installedAt t ht).2⟩, r, v, receiver, hv,
      hc.confirmedAt _ r v receiver hv⟩

/-- Whoever was confirmed at some time stays so. -/
theorem Ordered.of_kept (h : c.Ordered now f)
    (hkept : ∀ o r v, c.registration o = some r → r.confirmedAt = some v →
      ∃ r', c'.registration o = some r' ∧ r'.confirmedAt = some v) : c'.Ordered now f where
  registeredAt := h.registeredAt
  installedAt := h.installedAt
  confirmedAt u hu := by
    obtain ⟨hle, hinstalled, r, v, hr, hv, hvu⟩ := h.confirmedAt u hu
    obtain ⟨r', hr', hv'⟩ := hkept _ r v hr hv
    exact ⟨hle, hinstalled, r', v, hr', hv', hvu⟩

theorem ordered_start (c : Contents) (sender receiver : Owner) (now : Timestamp) :
    c.Ordered now (.start sender receiver now) :=
  ⟨UInt64.le_refl _, nofun, nofun⟩

theorem timelyAt_empty (now : Timestamp) : empty.TimelyAt now := ⟨nofun, nofun, nofun⟩

theorem TimelyAt.timely (h : c.TimelyAt now) : c.Timely where
  installed o f t hf ht := ((h.ordered o f hf).installedAt t ht).1
  confirmed o f hf hstatus := by
    have hset := (h.formed o f hf).confirmedAt.2 hstatus
    obtain ⟨u, hu⟩ := Option.isSome_iff_exists.1 hset
    obtain ⟨-, ⟨t, ht, htu⟩, hreceiver⟩ := (h.ordered o f hf).confirmedAt u hu
    exact ⟨t, u, ht, hu, htu, hreceiver⟩

end Contents

namespace Step

variable {settings : Settings} {now : Timestamp} {b b' : Books} {entry : Entry}

/-- A confirmation that is new was made now. -/
theorem confirmedAt_eq_now (h : Step settings now b entry b') {o : Owner} {r : Registration}
    {v : Timestamp} (hr : b'.contents.registration o = some r) (hv : r.confirmedAt = some v) :
    b.contents.registration o = some r ∨ v = now := by
  have hconfirmed : r.isConfirmed = true := by rw [Registration.isConfirmed, hv]; rfl
  rcases h.registration_confirmed hr hconfirmed with hold | ⟨q, -, -, rfl⟩ | ⟨rfl, -⟩
  · exact .inl hold
  · exact .inr (Option.some.inj hv).symm
  · cases h with
    | granted _ _ _ confirmed _ _ _ _ _ => exact .inr (Option.some.inj (hv.symm.trans confirmed))

/-- **An entry keeps times in order**, and none ahead of the clock. -/
theorem timelyAt (h : Step settings now b entry b') (hb : b.contents.TimelyAt now) :
    b'.contents.TimelyAt now where
  confirmedAt o r v hr hv := by
    rcases h.confirmedAt_eq_now hr hv with hold | rfl
    · exact hb.confirmedAt o r v hold hv
    · exact UInt64.le_refl _
  formed _ _ hf := h.formed hb.formed hf
  ordered o f hf := by
    cases hold : b.contents.referral o with
    | none =>
      obtain ⟨sender, rfl⟩ := h.starts hold hf
      exact Contents.ordered_start _ sender o now
    | some g =>
      obtain ⟨g', hg', hadvance⟩ := h.advances hold
      cases hg'.symm.trans hf
      refine (hadvance.ordered hb (hb.ordered o g hold) (hb.formed o g hold)).of_kept ?_
      intro p r v hr hv
      obtain ⟨r', hr', hmove⟩ := h.move hr
      exact ⟨r', hr', hmove.develops.confirmedAt_eq v hv⟩

end Step

/-- What an act sets the clock to, if it does. -/
def Act.clock? : Act → Option Timestamp
  | surround e => some e.clock
  | _ => none

/-- The clock is never set back. -/
def GoesForward (clock : Timestamp) (acts : List Act) : Prop :=
  (clock :: acts.filterMap Act.clock?).IsChain fun t t' => t.seconds ≤ t'.seconds

section Runs

variable {σ : Type} [Store σ] [LawfulStore σ] {settings : Settings} {w : World σ}

/-- No act but a change of the surroundings sets the clock. -/
theorem World.clock_act (settings : Settings) (hw : w.Good) (a : Act) :
    (w.act settings a).clock = a.clock?.getD w.clock := by
  have hevent := act_event settings hw a
  generalize w.act settings a = w' at hevent ⊢
  cases hevent with
  | called made _ => exact made.clock_eq
  | advanced _ made _ => exact made.clock_eq
  | idle _ => rfl
  | surrounded => rfl

/-- **Times are in order** after every run in which the clock goes forward. -/
theorem World.timelyAt_run (settings : Settings) (hw : w.Good)
    (htimely : (contents w.store).TimelyAt w.clock) (acts : List Act)
    (hforward : GoesForward w.clock acts) :
    ∃ now, (contents (w.run settings acts).store).TimelyAt now := by
  induction acts generalizing w with
  | nil => exact ⟨w.clock, htimely⟩
  | cons a acts ih =>
    have hgood := (act_event settings hw a).good hw
    have hclock := World.clock_act settings hw a
    obtain ⟨b, entry, hcontents, -, hstep, -⟩ := act_registers settings hw a
    have hafter : (contents (w.act settings a).store).TimelyAt w.clock :=
      hstep.timelyAt (hcontents ▸ htimely)
    cases ha : a.clock? with
    | none =>
      rw [ha] at hclock
      rw [GoesForward, List.filterMap_cons_none ha] at hforward
      exact ih hgood (hclock ▸ hafter) (hclock ▸ hforward)
    | some t =>
      rw [ha] at hclock
      rw [GoesForward, List.filterMap_cons_some ha, List.isChain_cons_cons] at hforward
      exact ih hgood (hclock ▸ hafter.mono hforward.1) (hclock ▸ hforward.2)

end Runs

/-- **Referrals only move on and stay well formed** in every run on every store, and if the
clock is never set back, their times are in order. -/
theorem progresses_run (kind : StoreKind) (settings : Settings) (clock : Timestamp)
    (acts : List Act) :
    ((World.start clock : World kind.State).run settings acts).Progresses settings ∧
      (GoesForward clock acts →
        (contents ((World.start clock : World kind.State).run settings acts).store).Timely) := by
  have hstart := World.good_start (σ := kind.State) clock
  have hempty := World.contents_start (σ := kind.State) clock
  refine ⟨(World.good_run settings hstart acts).progresses
    (World.formed_run settings hstart (World.formed_start clock) acts), fun hforward => ?_⟩
  obtain ⟨now, htimely⟩ := World.timelyAt_run settings hstart
    (hempty ▸ Contents.timelyAt_empty clock) acts hforward
  exact htimely.timely

namespace PaidLater

/-- Someone who is invited installs the app, is confirmed after that, and is paid in the
background. -/
def acts : List Act :=
  [.call (.register ⟨"a@x.com", Shared.byteLength_first⟩ Shared.wallet none),
    .call (.register ⟨"b@x.com", Shared.byteLength_second⟩ Shared.guestWallet
      (some ⟨"00000002", Shared.byteLength_code⟩)),
    .surround { clock := ⟨1700000100⟩ },
    .call (.markInstalled Shared.second),
    .surround { clock := ⟨1700000200⟩ },
    .call (.confirm Shared.second "00000000000000000000000000000003"),
    .background 0]

theorem goesForward_acts : GoesForward ⟨1700000000⟩ acts := by
  unfold GoesForward acts
  simp only [List.filterMap_cons, Act.clock?, List.filterMap_nil]
  decide

theorem referral_acts :
    (contents ((World.start ⟨1700000000⟩ : World StoreKind.table.State).run { }
      acts).store).referral Shared.second =
        some ⟨Shared.first, Shared.second, .confirmed, ⟨1700000000⟩, some ⟨1700000100⟩,
          some ⟨1700000200⟩, some ⟨10000000⟩, some ⟨10000000⟩⟩ := by
  unfold World.run acts
  simp only [List.foldl_cons, List.foldl_nil, World.act, Call.after, register,
    Shared.ofEmail_first, Shared.ofEmail_second]
  decide +kernel

end PaidLater

open PaidLater in
/-- A run with a referral that came all the way, at three times. -/
theorem progresses_run_paid :
    GoesForward ⟨1700000000⟩ acts ∧
      (contents ((World.start ⟨1700000000⟩ : World StoreKind.table.State).run { }
        acts).store).Timely ∧
      ∃ f, (contents ((World.start ⟨1700000000⟩ : World StoreKind.table.State).run { }
        acts).store).referral Shared.second = some f ∧ f.status = .confirmed :=
  ⟨goesForward_acts, (progresses_run .table { } ⟨1700000000⟩ acts).2 goesForward_acts, _,
    referral_acts, rfl⟩

end Onboarding
