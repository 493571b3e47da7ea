import Mathlib.Data.List.Chain
import Onboarding.Proofs.Service.Constancy
/-!
# Throttling — when verification mails go to one owner

A run sends mails, each at a reading of the clock (`World.dispatched`). Those that carry
the code of one owner are far enough apart, whichever way the clock is set: a mail needs
that the stored time is past by the throttle, and puts its own reading in its place. So
while an owner is not confirmed, the stored time is that of the last mail (`Spaced`), and
what does not mail does not move it.
-/

namespace Onboarding

open StoreView

/-! ## Mails and their times -/

/-- A mail that carries the code of an owner. -/
def Mail.verifies (o : Owner) : Mail → Bool
  | verification email _ => Owner.ofEmail email = o
  | welcome _ => false

/-- When the verification mails of an owner were sent, of mails that were sent at some time
each. -/
def verificationTimes (o : Owner) (mails : List (Timestamp × Mail)) : List Timestamp :=
  (mails.filter (·.2.verifies o)).map (·.1)

@[simp] theorem verificationTimes_append (o : Owner) (l l' : List (Timestamp × Mail)) :
    verificationTimes o (l ++ l') = verificationTimes o l ++ verificationTimes o l' := by
  simp [verificationTimes]

/-- Mails of one time that are verification mails of an owner. -/
theorem verificationTimes_map (o : Owner) (now : Timestamp) (mails : List Mail) :
    verificationTimes o (mails.map (now, ·)) =
      (mails.filter (·.verifies o)).map fun _ => now := by
  rw [verificationTimes, List.filter_map, List.map_map]
  rfl

section Dispatch

variable {σ : Type} [Store σ] [StoreView σ]

/-- The mails that an act sends, each with the reading of the clock. -/
def World.dispatch (settings : Settings) (w : World σ) (a : Act) : List (Timestamp × Mail) :=
  ((w.act settings a).outbox.drop w.outbox.length).map (w.clock, ·)

/-- The mails that a run sends, each with the reading of the clock, oldest first. -/
def World.dispatched (settings : Settings) : World σ → List Act → List (Timestamp × Mail)
  | _, [] => []
  | w, a :: acts => w.dispatch settings a ++ dispatched settings (w.act settings a) acts

theorem World.dispatched_concat (settings : Settings) (w : World σ) (acts : List Act) (a : Act) :
    w.dispatched settings (acts ++ [a]) =
      w.dispatched settings acts ++ (w.run settings acts).dispatch settings a := by
  induction acts generalizing w with
  | nil => simp [dispatched, run]
  | cons b acts ih =>
    rw [List.cons_append, dispatched, dispatched, ih, List.append_assoc]
    rfl

end Dispatch

/-! ## One entry -/

/-- What an entry does to an owner, by the verification mails that it sends to the owner. -/
inductive Contents.Mailing (settings : Settings) (now : Timestamp) (c c' : Contents) (o : Owner) :
    List Mail → Prop
  /-- No mail is sent, and the time of what is not confirmed stays. -/
  | silent (absent : c'.registration o = none → c.registration o = none)
      (kept : ∀ r', c'.registration o = some r' → r'.confirmedAt = none →
        ∃ r, c.registration o = some r ∧ r.confirmedAt = none ∧ r'.createdAt = r.createdAt) :
    Mailing settings now c c' o []
  | first {m : Mail} {r : Registration} (absent : c.registration o = none)
      (stored : c'.registration o = some r) (time : r.createdAt = now) :
    Mailing settings now c c' o [m]
  | again {m : Mail} {r r' : Registration} (held : c.registration o = some r)
      (fresh : r.confirmedAt = none)
      (waited : settings.throttleSeconds.toNat ≤ r.createdAt.elapsed now)
      (stored : c'.registration o = some r') (time : r'.createdAt = now) :
    Mailing settings now c c' o [m]

section Mailing

variable {settings : Settings} {now : Timestamp} {c c' : Contents} {o p : Owner}

/-- Where one registration is put, every other owner is left alone. -/
theorem Contents.registration_put_invite (c : Contents) (r : Registration) (receiver : Owner)
    (now : Timestamp) (sender? : Option Owner) :
    ((c.put r).invite receiver now sender?).registration r.owner = some r ∧
      ∀ o, o ≠ r.owner →
        ((c.put r).invite receiver now sender?).registration o = c.registration o := by
  rw [registration_invite]
  exact ⟨registration_put_self c r, fun o ho => registration_put_of_ne ho⟩

namespace Contents.Mailing

/-- Nothing is mailed to an owner whose registration is not touched. -/
theorem of_eq (h : c'.registration o = c.registration o) : c.Mailing settings now c' o [] := by
  refine .silent (fun hnone => h ▸ hnone) fun r' hr' hfresh => ?_
  rw [h] at hr'
  exact ⟨r', hr', hfresh, rfl⟩

/-- An entry that sends no verification mail is about one owner. -/
theorem unsent (hself : c.Mailing settings now c' p [])
    (hother : ∀ o, o ≠ p → c'.registration o = c.registration o) (o : Owner) :
    c.Mailing settings now c' o [] := by
  by_cases ho : o = p
  · exact ho ▸ hself
  · exact .of_eq (hother o ho)

/-- An entry that sends a verification mail is about the owner of the email. -/
theorem sent {email code : String} (hp : Owner.ofEmail email = p)
    (hself : c.Mailing settings now c' p [.verification email code])
    (hother : ∀ o, o ≠ p → c'.registration o = c.registration o) (o : Owner) :
    c.Mailing settings now c' o
      ([Mail.verification email code].filter (·.verifies o)) := by
  by_cases ho : o = p
  · subst ho
    have hverifies : (Mail.verification email code).verifies o = true := decide_eq_true hp
    rw [List.filter_cons_of_pos hverifies, List.filter_nil]
    exact hself
  · have hverifies : ¬ (Mail.verification email code).verifies o = true := fun h =>
      ho ((of_decide_eq_true h).symm.trans hp)
    rw [List.filter_cons_of_neg hverifies, List.filter_nil]
    exact .of_eq (hother o ho)

/-- A registration that is confirmed, or was there with the same time, is no reason for a
mail. -/
theorem put_silent {r : Registration}
    (hkept : r.confirmedAt = none →
      ∃ q, c.registration r.owner = some q ∧ q.confirmedAt = none ∧ r.createdAt = q.createdAt)
    (hstored : c'.registration r.owner = some r) : c.Mailing settings now c' r.owner [] := by
  refine .silent (fun hnone => nomatch hnone.symm.trans hstored) fun r' hr' hfresh => ?_
  rw [hstored] at hr'
  cases hr'
  exact hkept hfresh

end Contents.Mailing

/-- **An entry mails an owner** when it registers the owner, or once the throttle is over. -/
theorem Step.mailing {b b' : Books} {entry : Entry} (h : Step settings now b entry b')
    (hnamed : ∀ r, b.contents.Holds r → r.confirmedAt = none → r.owner = .ofEmail r.email)
    (o : Owner) : ∃ mails, b'.outbox = b.outbox ++ mails ∧
      b.contents.Mailing settings now b'.contents o (mails.filter (·.verifies o)) := by
  have hnone : b.outbox = b.outbox ++ [] := (List.append_nil _).symm
  cases h with
  | nothing | stakeRefused _ _ | stakeLost _ _ _ | grantRefused _ _ _ | grantLost _ _ _
  | installed _ _ _ | paid _ _ _ _ _ _ _ _ => exact ⟨[], hnone, .of_eq rfl⟩
  | @enrolled r sender? owner_eq _ time absent _ _ _ _ =>
    obtain ⟨hself, hother⟩ := b.contents.registration_put_invite r r.owner now sender?
    exact ⟨_, rfl, .sent owner_eq.symm (.first absent hself time) hother o⟩
  | @renewed r code? sender? held fresh waited _ _ =>
    obtain ⟨hself, hother⟩ := b.contents.registration_put_invite
      { r with referralCode := code?.or r.referralCode, createdAt := now } r.owner now sender?
    exact ⟨_, rfl, .sent (hnamed r held fresh).symm (.again held fresh waited hself rfl) hother o⟩
  | @tracked r code sender? held fresh _ _ =>
    obtain ⟨hself, hother⟩ := b.contents.registration_put_invite
      { r with referralCode := some code } r.owner now sender?
    refine ⟨[], hnone, .unsent (.put_silent (r := { r with referralCode := some code })
      (fun _ => ⟨r, held, fresh, rfl⟩) hself) hother o⟩
  | @confirmed r held _ =>
    have hself := b.contents.registration_put_self { r with confirmedAt := some now }
    refine ⟨_, rfl, .unsent (.put_silent (r := { r with confirmedAt := some now }) nofun hself)
      (fun o ho => ?_) o⟩
    exact Contents.registration_put_of_ne ho
  | @granted r stake _ _ _ confirmed _ _ _ _ _ =>
    have hself := b.contents.registration_put_self r
    have hconfirmed : r.confirmedAt ≠ none := by rw [confirmed]; exact Option.some_ne_none _
    refine ⟨[], hnone, .unsent (.put_silent (absurd · hconfirmed) hself) (fun o ho => ?_) o⟩
    exact Contents.registration_put_of_ne ho

end Mailing

/-! ## Whole runs -/

/-- Two readings of the clock are apart by the throttle. -/
def Settings.Apart (settings : Settings) (t t' : Timestamp) : Prop :=
  t.seconds.toNat + settings.throttleSeconds.toNat ≤ t'.seconds.toNat

/-- When the verification mails of an owner were sent, and what the contents tell of it. -/
structure Contents.Spaced (settings : Settings) (c : Contents) (o : Owner)
    (times : List Timestamp) : Prop where
  chain : times.IsChain settings.Apart
  /-- Whoever is not registered was never mailed. -/
  absent : c.registration o = none → times = []
  /-- Whoever is not confirmed was mailed at the stored time, and not since. -/
  last : ∀ r, c.registration o = some r → r.confirmedAt = none →
    times.getLast? = some r.createdAt

section Runs

variable {settings : Settings} {now : Timestamp} {c c' : Contents} {o : Owner}

/-- Seconds pass only if the clock is ahead. -/
theorem Settings.Apart.of_elapsed (hpos : 0 < settings.throttleSeconds) {t : Timestamp}
    (h : settings.throttleSeconds.toNat ≤ t.elapsed now) : settings.Apart t now := by
  have hpos : 0 < settings.throttleSeconds.toNat := UInt64.lt_iff_toNat_lt.1 hpos
  unfold Apart
  unfold Timestamp.elapsed at h
  omega

/-- **Mails go on to be apart** through every entry. -/
theorem Contents.Mailing.spaced (hpos : 0 < settings.throttleSeconds) {mails : List Mail}
    (h : c.Mailing settings now c' o mails) {times : List Timestamp}
    (hs : c.Spaced settings o times) :
    c'.Spaced settings o (times ++ mails.map fun _ => now) := by
  have hlast : ∀ (ts : List Timestamp), (ts ++ [now]).getLast? = some now := by simp
  cases h with
  | silent absent kept =>
    rw [List.map_nil, List.append_nil]
    refine ⟨hs.chain, fun hnone => hs.absent (absent hnone), fun r' hr' hfresh => ?_⟩
    obtain ⟨r, hr, hopen, htime⟩ := kept r' hr' hfresh
    rw [htime]
    exact hs.last r hr hopen
  | first absent stored time =>
    rw [hs.absent absent, List.map_singleton, List.nil_append]
    refine ⟨.singleton _, fun hnone => (nomatch hnone.symm.trans stored),
      fun r' hr' _ => ?_⟩
    cases stored.symm.trans hr'
    rw [time]
    rfl
  | @again m r r' held fresh waited stored time =>
    rw [List.map_singleton]
    refine ⟨?_, fun hnone => (nomatch hnone.symm.trans stored), fun q hq _ => ?_⟩
    · rw [List.isChain_append]
      refine ⟨hs.chain, .singleton _, fun t ht t' ht' => ?_⟩
      rw [hs.last r held fresh] at ht
      cases ht
      cases ht'
      exact .of_elapsed hpos waited
    · cases stored.symm.trans hq
      rw [hlast, time]

/-- Whoever is confirmed is mailed no code. -/
theorem Contents.Mailing.eq_nil {mails : List Mail} (h : c.Mailing settings now c' o mails)
    {r : Registration} (hr : c.registration o = some r) (hconfirmed : r.isConfirmed = true) :
    mails = [] := by
  cases h with
  | silent _ _ => rfl
  | first absent _ _ => cases absent.symm.trans hr
  | again held fresh _ _ _ =>
    cases held.symm.trans hr
    rw [Registration.isConfirmed, fresh] at hconfirmed
    cases hconfirmed

variable {σ : Type} [Store σ] [LawfulStore σ] {w : World σ}

/-- Whoever still has to confirm is registered under an email, in every run. -/
theorem World.named_run (settings : Settings) (clock : Timestamp) (acts : List Act) :
    ∀ r, (contents ((World.start clock : World σ).run settings acts).store).Holds r →
      r.confirmedAt = none → r.owner = .ofEmail r.email := by
  refine World.books_run (P := fun b => ∀ r, b.contents.Holds r → r.confirmedAt = none →
    r.owner = .ofEmail r.email) (World.good_start clock) ?_ (fun _ _ _ h => h)
    (fun _ _ _ _ hb hstep r => hstep.named hb) acts
  rw [World.books_start]
  exact fun r hr => nomatch hr

/-- What one act mails to an owner, at the reading of the clock. -/
theorem World.act_mailing (settings : Settings) (hw : w.Good)
    (hnamed : ∀ r, (contents w.store).Holds r → r.confirmedAt = none → r.owner = .ofEmail r.email)
    (a : Act) (o : Owner) :
    ∃ mails, verificationTimes o (w.dispatch settings a) = mails.map (fun _ => w.clock) ∧
      (contents w.store).Mailing settings w.clock (contents (w.act settings a).store) o mails := by
  obtain ⟨b, entry, hcontents, houtbox, hstep, -⟩ := act_registers settings hw a
  rw [← hcontents] at hnamed ⊢
  obtain ⟨mails, hmails, hmailing⟩ := hstep.mailing hnamed o
  have hsent : (w.act settings a).outbox.drop w.outbox.length = mails := by
    rw [show (w.act settings a).outbox = w.outbox ++ mails from houtbox ▸ hmails,
      List.drop_left]
  refine ⟨mails.filter (·.verifies o), ?_, hmailing⟩
  rw [World.dispatch, hsent, verificationTimes_map]

/-- **Verification mails are spaced** in every run. -/
theorem World.spaced_run (hpos : 0 < settings.throttleSeconds) (clock : Timestamp)
    (acts : List Act) (o : Owner) :
    (contents ((World.start clock : World σ).run settings acts).store).Spaced settings o
      (verificationTimes o ((World.start clock : World σ).dispatched settings acts)) := by
  induction acts using List.reverseRecOn with
  | nil =>
    show (contents (World.start clock : World σ).store).Spaced settings o []
    rw [World.contents_start]
    exact ⟨.nil, fun _ => rfl, nofun⟩
  | append_singleton acts a ih =>
    have hgood := World.good_run settings (World.good_start (σ := σ) clock) acts
    obtain ⟨mails, htimes, hmailing⟩ :=
      World.act_mailing settings hgood (World.named_run settings clock acts) a o
    rw [World.dispatched_concat, verificationTimes_append, htimes, World.run_concat]
    exact hmailing.spaced hpos ih

/-- Whoever is confirmed is mailed no code by any run. -/
theorem World.verificationTimes_of_confirmed (settings : Settings) (clock : Timestamp)
    (before after : List Act) {o : Owner} {r : Registration}
    (hr : (contents ((World.start clock : World σ).run settings before).store).registration o =
      some r) (hconfirmed : r.isConfirmed = true) :
    verificationTimes o
      (((World.start clock : World σ).run settings before).dispatched settings after) = [] := by
  induction after generalizing before r with
  | nil => rfl
  | cons a after ih =>
    have hgood := World.good_run settings (World.good_start (σ := σ) clock) before
    obtain ⟨mails, htimes, hmailing⟩ :=
      World.act_mailing settings hgood (World.named_run settings clock before) a o
    obtain ⟨r', hr', hdevelops⟩ := World.develops_run settings hgood hr [a]
    rw [World.dispatched, verificationTimes_append, htimes, hmailing.eq_nil hr hconfirmed,
      List.map_nil, List.nil_append]
    obtain ⟨t, ht⟩ := Option.isSome_iff_exists.1 hconfirmed
    have hconfirmed' : r'.isConfirmed = true := by
      rw [Registration.isConfirmed, hdevelops.confirmedAt_eq t ht]
      rfl
    have hnext := ih (before ++ [a]) (r := r') (by rw [World.run_concat]; exact hr') hconfirmed'
    rwa [World.run_concat] at hnext

end Runs

/-- **Verification mails are throttled** in every run on every store, whichever way the clock
is set: two mails to an owner, one after the other, are apart by the throttle, and whoever
is confirmed gets no more of them. -/
theorem throttled_run (kind : StoreKind) (settings : Settings)
    (hpos : 0 < settings.throttleSeconds) (clock : Timestamp) (acts : List Act) (o : Owner) :
    (verificationTimes o
      ((World.start clock : World kind.State).dispatched settings acts)).IsChain settings.Apart ∧
    ∀ before after r, acts = before ++ after →
      (contents ((World.start clock : World kind.State).run settings before).store).registration o =
        some r → r.isConfirmed = true →
      verificationTimes o
        (((World.start clock : World kind.State).run settings before).dispatched settings after) =
          [] := by
  refine ⟨(World.spaced_run hpos clock acts o).chain, ?_⟩
  rintro before after r - hr hconfirmed
  exact World.verificationTimes_of_confirmed settings clock before after hr hconfirmed

namespace Resent

/-- The owner asks for a code. -/
def ask : Act := .call (.register ⟨"a@x.com", Shared.byteLength_first⟩ Shared.wallet none)

/-- The owner asks too early, then with the clock set back, then when the throttle is over. -/
def before : List Act :=
  [ask, .surround { clock := ⟨1700000059⟩ }, ask, .surround { clock := ⟨1600000000⟩ }, ask,
    .surround { clock := ⟨1700000060⟩ }, ask,
    .call (.confirm Shared.first "00000000000000000000000000000001")]

/-- The owner asks once more after the confirmation. -/
def after : List Act := [.surround { clock := ⟨1700000200⟩ }, ask]

theorem dispatched_before :
    (World.start ⟨1700000000⟩ : World StoreKind.table.State).dispatched { } before =
      [(⟨1700000000⟩, .verification "a@x.com" "00000000000000000000000000000001"),
        (⟨1700000060⟩, .verification "a@x.com" "00000000000000000000000000000001"),
        (⟨1700000060⟩, .welcome "a@x.com")] := by
  simp only [before, ask, World.dispatched, World.dispatch, World.act, Call.after, register,
    Shared.ofEmail_first]
  decide +kernel

/-- The registration that the second mail put at its time, confirmed. -/
def registration : Registration :=
  ⟨Shared.first, "a@x.com", Shared.wallet, "00000000000000000000000000000001", ⟨1700000060⟩,
    some ⟨1700000060⟩, "00000002", none⟩

theorem registration_before :
    (contents ((World.start ⟨1700000000⟩ : World StoreKind.table.State).run { }
      before).store).registration Shared.first = some registration := by
  unfold World.run
  simp only [before, ask, List.foldl_cons, List.foldl_nil, World.act, Call.after, register,
    Shared.ofEmail_first]
  decide +kernel

end Resent

open Resent in
/-- A run with two mails, and none after the confirmation. -/
theorem throttled_run_resent :
    0 < ({ } : Settings).throttleSeconds ∧
      verificationTimes Shared.first ((World.start ⟨1700000000⟩ :
        World StoreKind.table.State).dispatched { } before) = [⟨1700000000⟩, ⟨1700000060⟩] ∧
      (verificationTimes Shared.first ((World.start ⟨1700000000⟩ :
        World StoreKind.table.State).dispatched { } (before ++ after))).IsChain
          ({ } : Settings).Apart ∧
      verificationTimes Shared.first (((World.start ⟨1700000000⟩ :
        World StoreKind.table.State).run { } before).dispatched { } after) = [] := by
  have hpos : 0 < ({ } : Settings).throttleSeconds := by decide
  obtain ⟨hchain, hrest⟩ :=
    throttled_run .table { } hpos ⟨1700000000⟩ (before ++ after) Shared.first
  refine ⟨hpos, ?_, hchain, hrest before after _ rfl registration_before rfl⟩
  rw [dispatched_before]
  simp [verificationTimes, Mail.verifies, Shared.ofEmail_first]

end Onboarding
