import Onboarding.Proofs.Service.Wallets
/-!
# Settlement — no referral that is ready is left behind

A referral is ready when its receiver has installed the app and is confirmed. Whichever
comes second puts the receiver among those that wait (`Step.payable_cases`), and a payout
that waited leaves nothing to pay. So everything ready waits at any time, and once nobody
waits nothing is ready. Two things keep a payout from getting stuck: both parties of a
referral are registered (`Step.linked`), and no receiver of a grant was invited before.
-/

namespace Onboarding

open StoreView

namespace Contents

variable {c c' : Contents}

theorem linked_empty : empty.Linked := nofun

/-- Whether a referral is ready depends on two records. -/
theorem Payable.congr {receiver : Owner} (h : c'.Payable receiver)
    (hreferral : c'.referral receiver = c.referral receiver)
    (hregistration : c'.registration receiver = c.registration receiver) : c.Payable receiver := by
  obtain ⟨f, r, hf, hinstalled, hr, hconfirmed⟩ := h
  exact ⟨f, r, hreferral ▸ hf, hinstalled, hregistration ▸ hr, hconfirmed⟩

/-- Parties stay registered, and so only a referral that is new has to be looked at. -/
theorem Linked.of_evolves (hc : c.Linked) (h : c.Evolves c')
    (hnew : ∀ o f', c'.referral o = some f' →
      (∃ f, c.referral o = some f ∧ f'.sender = f.sender) ∨
        ((∃ r, c'.registration o = some r) ∧ ∃ q, c'.registration f'.sender = some q)) :
    c'.Linked := by
  intro o f' hf'
  -- a referral that was there keeps its parties, and they stay registered
  rcases hnew o f' hf' with ⟨f, hf, hsender⟩ | hboth
  · obtain ⟨⟨r, hr⟩, ⟨q, hq⟩⟩ := hc o f hf
    obtain ⟨r', hr', -⟩ := h.registration hr
    obtain ⟨q', hq', -⟩ := h.registration hq
    rw [hsender]
    exact ⟨⟨r', hr'⟩, ⟨q', hq'⟩⟩
  · exact hboth

/-- The referral of an invitation has two registered parties. -/
theorem Linked.invite {r : Registration} {code? : Option String} {sender? : Option Owner}
    {now : Timestamp} (hc : c.Linked) (hput : c.Evolves (c.put r))
    (hinvited : Invited c r.owner code? sender?) :
    ((c.put r).invite r.owner now sender?).Linked := by
  refine hc.of_evolves (hput.invite rfl hinvited) fun o f' hf' => ?_
  rw [registration_invite]
  cases hinvited with
  | alone => exact .inl ⟨f', hf', rfl⟩
  | @invited code q hcode _ _ =>
    rw [Contents.invite, referral_refer] at hf'
    split at hf'
    · rename_i ho
      cases hf'
      subst ho
      obtain ⟨q', hq', -⟩ := hput.registration hcode.1
      exact .inr ⟨⟨r, registration_put_self c r⟩, ⟨q', hq'⟩⟩
    · exact .inl ⟨f', hf', rfl⟩

/-- A referral that moves on keeps its parties. -/
theorem Linked.refer {f f' : Referral} (hc : c.Linked) (hf : c.Refers f) (h : f.Grows f') :
    (c.refer f').Linked := by
  refine hc.of_evolves (.refer hf h) fun o g hg => .inl ?_
  rw [referral_refer] at hg
  split at hg
  · rename_i ho
    cases hg
    rw [ho, h.receiver_eq]
    exact ⟨f, hf, h.sender_eq⟩
  · exact ⟨g, hg, rfl⟩

/-- Putting a registration makes no referral. -/
theorem Linked.put {r : Registration} (hc : c.Linked) (h : c.Evolves (c.put r)) :
    (c.put r).Linked :=
  hc.of_evolves h fun _ f hf => .inl ⟨f, hf, rfl⟩

/-- An owner who is not confirmed is not paid, and whoever else is ready was so before the
owner was enrolled, renewed or invited. -/
theorem Payable.of_invite {r : Registration} {receiver : Owner} {sender? : Option Owner}
    {now : Timestamp} (h : ((c.put r).invite r.owner now sender?).Payable receiver)
    (hfresh : r.confirmedAt = none) : c.Payable receiver := by
  obtain ⟨f, q, hf, hinstalled, hq, hconfirmed⟩ := h
  rw [registration_invite, registration_put] at hq
  have hold := referral_of_invite hf (by rw [hinstalled]; decide)
  split at hq
  · cases hq
    rw [Registration.isConfirmed, hfresh] at hconfirmed
    cases hconfirmed
  · exact ⟨f, q, hold, hinstalled, hq, hconfirmed⟩

end Contents

namespace Step

variable {settings : Settings} {now : Timestamp} {b b' : Books} {entry : Entry}

/-- Nobody who waits is forgotten. -/
theorem mem_pending (h : Step settings now b entry b') {receiver : Owner}
    (hr : receiver ∈ b.pending) : receiver ∈ b'.pending := by
  cases h <;> first | exact hr | exact List.mem_append_left _ hr

theorem eq_of_nothing (h : Step settings now b .nothing b') : b' = b := by
  cases h
  rfl

/-- A payout lets nobody wait. -/
theorem pending_of_paid {p : Payout} (h : Step settings now b (.paid p) b') :
    b'.pending = b.pending := by
  cases h
  rfl

/-- **Parties are registered**, after every entry. -/
theorem linked (h : Step settings now b entry b') (hb : b.contents.Linked) :
    b'.contents.Linked := by
  have hevolves := h.evolves
  cases h with
  | nothing | stakeRefused _ _ | stakeLost _ _ _ | grantRefused _ _ _ | grantLost _ _ _ => exact hb
  | enrolled _ _ _ absent _ _ _ invited => exact hb.invite (.put_of_absent absent) invited
  | renewed held fresh _ _ invited | tracked held fresh _ invited =>
    exact Contents.Linked.invite hb (.put held (.of_fresh fresh rfl rfl rfl)) invited
  | confirmed held fresh => exact hb.put hevolves
  | installed held start _ =>
    exact hb.refer held ⟨rfl, rfl, fun hf => by rw [start] at hf; cases hf⟩
  | paid held installed _ _ _ _ _ _ =>
    exact hb.refer held ⟨rfl, rfl, fun hf => by rw [installed] at hf; cases hf⟩
  | granted _ _ _ _ _ absent _ _ _ => exact hb.put hevolves

/-- A payout leaves its own referral settled and touches no other one. -/
theorem payable_of_paid {p : Payout} (h : Step settings now b (.paid p) b') {receiver : Owner}
    (hr : b'.contents.Payable receiver) : receiver ≠ p.receiver ∧ b.contents.Payable receiver := by
  cases h with
  | @paid f _ _ _ _ _ _ _ _ _ _ _ _ payout _ =>
    subst payout
    have hne : receiver ≠ f.receiver := by
      rintro rfl
      obtain ⟨g, r, hg, hinstalled, -⟩ := hr
      rw [Contents.referral_refer, if_pos rfl] at hg
      cases hg
      cases hinstalled
    exact ⟨hne, hr.congr (Contents.referral_refer_of_ne hne) rfl⟩

/-- **Whoever becomes ready waits**, as long as the store does not fail. -/
theorem payable_cases (h : Step settings now b entry b') (hsafe : b.failing = [])
    (hlinked : b.contents.Linked) {receiver : Owner} (hr : b'.contents.Payable receiver) :
    b.contents.Payable receiver ∨ receiver ∈ b'.pending := by
  have hstep := h
  cases h with
  | nothing | stakeRefused _ _ | stakeLost _ _ _ | grantRefused _ _ _ | grantLost _ _ _ =>
    exact .inl hr
  | enrolled _ fresh _ _ _ _ _ _ | renewed _ fresh _ _ _ | tracked _ fresh _ _ =>
    exact .inl (hr.of_invite fresh)
  | @confirmed r held _ =>
    by_cases hne : receiver = r.owner
    · exact .inr (List.mem_append_right _ (List.mem_singleton.2 hne))
    · exact .inl (hr.congr rfl (Contents.registration_put_of_ne hne))
  | @installed f waiting held _ noticed =>
    by_cases hne : receiver = f.receiver
    · subst hne
      rcases noticed with rfl | ⟨-, hbroken | hopen⟩
      · exact .inr (List.mem_append_right _ List.mem_cons_self)
      -- whoever was not noticed is not confirmed, and so not ready
      · rw [hsafe] at hbroken
        cases hbroken
      · obtain ⟨g, r, -, -, hregistered, hconfirmed⟩ := hr
        rw [Registration.isConfirmed, hopen r hregistered] at hconfirmed
        cases hconfirmed
    · exact .inl (hr.congr (Contents.referral_refer_of_ne hne) rfl)
  | paid _ _ _ _ _ _ _ _ => exact .inl (hstep.payable_of_paid hr).2
  | @granted r _ _ _ _ _ _ absent _ _ _ =>
    by_cases hne : receiver = r.owner
    · -- a referral of the wallet's owner would have had a registered receiver
      subst hne
      obtain ⟨f, q, hf, -⟩ := hr
      obtain ⟨⟨known, hknown⟩, -⟩ := hlinked r.owner f hf
      rw [absent] at hknown
      cases hknown
    · exact .inl (hr.congr rfl (Contents.registration_put_of_ne hne))

end Step

/-! ## Worlds where everything ready waits -/

section Runs

variable {σ : Type} [Store σ] [LawfulStore σ] {settings : Settings} {w w' : World σ}

/-- The store does not fail, parties are registered, and of the referrals that are ready
each is among `queue`. -/
structure World.Attended (w : World σ) (queue : List Owner) : Prop where
  good : w.Good
  safe : failing w.store = []
  linked : (contents w.store).Linked
  waiting : ∀ receiver, (contents w.store).Payable receiver → receiver ∈ queue

/-- A call keeps everything ready among those that wait. -/
theorem Made.attended {entry : Entry} (h : Made settings w w' entry)
    (hw : w.Attended w.pending) : w'.Attended w'.pending where
  good := h.good
  safe := h.step.failing_eq.trans hw.safe
  linked := h.step.linked hw.linked
  waiting receiver hr :=
    (h.step.payable_cases hw.safe hw.linked hr).elim
      (fun hold => h.step.mem_pending (hw.waiting receiver hold)) id

/-- **A payout that was due leaves the rest of the queue.** -/
theorem World.Attended.advance {receiver : Owner} {queue : List Owner} {entry : Entry}
    (hw : w.Attended (receiver :: queue)) (hmade : Made settings w w' entry)
    (hdone : (∃ p, entry = .paid p ∧ p.receiver = receiver) ∨ entry = .nothing ∧
      (failing w.store = [] → (contents w.store).Linked →
        ¬ (contents w.store).Payable receiver)) :
    w'.Attended queue where
  good := hmade.good
  safe := hmade.step.failing_eq.trans hw.safe
  linked := hmade.step.linked hw.linked
  waiting other hr := by
    -- whoever is still ready was so before and is not the one who was paid
    have hold : other ≠ receiver ∧ (contents w.store).Payable other := by
      rcases hdone with ⟨p, rfl, rfl⟩ | ⟨rfl, hnone⟩
      · exact hmade.step.payable_of_paid hr
      · have hsame : contents w'.store = contents w.store :=
          congrArg Books.contents hmade.step.eq_of_nothing
        rw [hsame] at hr
        refine ⟨?_, hr⟩
        rintro rfl
        exact hnone hw.safe hw.linked hr
    exact (List.mem_cons.1 (hw.waiting other hold.2)).resolve_left hold.1

/-- Who waits stays but for the one who was taken out. -/
theorem mem_of_getElem? {queue : List Owner} {place : Nat} {receiver other : Owner}
    (h : queue[place]? = some receiver) (hother : other ∈ queue) :
    other ∈ receiver :: queue.eraseIdx place := by
  obtain ⟨i, hi⟩ := List.mem_iff_getElem?.1 hother
  by_cases hplace : i = place
  · rw [hplace, h] at hi
    cases hi
    exact List.mem_cons_self
  · exact List.mem_cons_of_mem _ (List.mem_eraseIdx_iff_getElem?.2 ⟨i, hplace, hi⟩)

/-- Every act keeps everything ready among those that wait. -/
theorem Event.attended {a : Act} (h : Event settings w a w') (ha : a.Safe)
    (hw : w.Attended w.pending) : w'.Attended w'.pending := by
  cases h with
  | called made _ => exact made.attended hw
  | @advanced place receiver entry _ waiting made done =>
    -- a payout adds nobody to the queue
    have hpending : w'.pending = w.pending.eraseIdx place := by
      rcases done with ⟨p, rfl, -⟩ | ⟨rfl, -⟩
      · exact made.step.pending_of_paid
      · exact congrArg Books.pending made.step.eq_of_nothing
    rw [hpending]
    have hw' : World.Attended { w with pending := w.pending.eraseIdx place }
        (receiver :: w.pending.eraseIdx place) :=
      ⟨⟨hw.good.sound, hw.good.quiet⟩, hw.safe, hw.linked,
        fun other hr => mem_of_getElem? waiting (hw.waiting other hr)⟩
    exact hw'.advance made done
  | idle _ => exact hw
  | @surrounded e =>
    have hcontents := LawfulStore.contents_failOn e.failing w.store
    refine ⟨⟨LawfulStore.sound_failOn _ hw.good.sound, hw.good.quiet⟩,
      World.failing_surround ha w, ?_, fun receiver hr => ?_⟩
    · show (contents (failOn e.failing w.store)).Linked
      rw [hcontents]
      exact hw.linked
    · refine hw.waiting receiver ?_
      rw [← hcontents]
      exact hr

/-- Everything ready waits, after every run in which the store does not fail. -/
theorem World.attended_run (settings : Settings) (hw : w.Attended w.pending) (acts : List Act)
    (hacts : ∀ a ∈ acts, a.Safe) :
    (w.run settings acts).Attended (w.run settings acts).pending := by
  induction acts using List.reverseRecOn with
  | nil => exact hw
  | append_singleton acts a ih =>
    have hbefore := ih fun a' ha' => hacts a' (List.mem_append_left _ ha')
    rw [run_concat]
    exact (act_event settings hbefore.good a).attended (hacts a (by simp)) hbefore

theorem World.attended_start (clock : Timestamp) : (start clock : World σ).Attended [] := by
  refine ⟨good_start clock, LawfulStore.failing_empty, ?_, ?_⟩
  · rw [start, LawfulStore.contents_empty]
    exact Contents.linked_empty
  · rw [start, LawfulStore.contents_empty]
    rintro receiver ⟨f, r, hf, -⟩
    cases hf

/-- Paying everyone in a queue leaves nobody ready. -/
theorem World.attended_foldl (settings : Settings) (queue : List Owner) (hw : w.Attended queue) :
    (queue.foldl (fun w receiver => (advanceReferral settings receiver w).2) w).Attended [] := by
  induction queue generalizing w with
  | nil => exact hw
  | cons receiver queue ih =>
    refine ih ?_
    rcases advanceReferral_made settings hw.good receiver with
      ⟨p, hp, hmade⟩ | ⟨hmade, hnone⟩
    · exact hw.advance hmade (.inl ⟨p, rfl, hp⟩)
    · exact hw.advance hmade (.inr ⟨rfl, hnone⟩)

end Runs

/-- **No referral that is ready is left behind**: when everybody who waited was paid, no
receiver who is confirmed has a referral in `installed`. -/
theorem settled_run (kind : StoreKind) (settings : Settings) (clock : Timestamp)
    (acts : List Act) (hacts : ∀ a ∈ acts, a.Safe) (receiver : Owner) :
    ¬ (contents (settle settings
      ((World.start clock : World kind.State).run settings acts)).store).Payable receiver := by
  intro hready
  have hrun := World.attended_run settings
    (World.attended_start clock : (World.start clock : World kind.State).Attended []) acts hacts
  generalize (World.start clock : World kind.State).run settings acts = w at hready hrun
  -- settling takes the whole queue out first and pays it one by one
  have hqueue : World.Attended { w with pending := [] } w.pending :=
    ⟨⟨hrun.good.sound, hrun.good.quiet⟩, hrun.safe, hrun.linked, hrun.waiting⟩
  have hsettled := World.attended_foldl settings w.pending hqueue
  exact absurd (hsettled.waiting receiver hready) List.not_mem_nil

/-- A run in which an inviter and a receiver are confirmed, and the receiver has installed
the app before. -/
def referredActs : List Act :=
  [.call (.register ⟨"a@x.com", Shared.byteLength_first⟩ Shared.wallet none),
    .call (.confirm Shared.first "00000000000000000000000000000001"),
    .call (.register ⟨"b@x.com", Shared.byteLength_second⟩ Shared.guestWallet
      (some ⟨"00000002", Shared.byteLength_code⟩)),
    .call (.markInstalled Shared.second),
    .surround { clock := ⟨1700000100⟩, refusesAll := true },
    .call (.confirm Shared.second "00000000000000000000000000000003"),
    .surround { clock := ⟨1700000200⟩ },
    .call (.confirm Shared.second "00000000000000000000000000000003")]

/-- A referral of a run where a stake was refused first is not left behind either. -/
theorem settled_run_referred :
    (∀ a ∈ referredActs, a.Safe) ∧
      ¬ (contents (settle { } ((World.start ⟨1700000000⟩ : World StoreKind.indexed.State).run { }
        referredActs)).store).Payable Shared.second := by
  have hsafe : ∀ a ∈ referredActs, a.Safe := by
    simp [referredActs, Act.Safe]
  exact ⟨hsafe, settled_run .indexed { } _ referredActs hsafe _⟩

end Onboarding
