import Onboarding.Proofs.Service.Settlement
/-!
# Installations — one write, and one read behind it

An installation moves the referral of the receiver and then looks the receiver up, to leave
the referral to be paid. An error before the move has changed nothing; an error of the lookup
comes too late (`markInstalled_eq_error`). `World.Tears` says when that is: the referral is at
its start, the move goes through, and lookups are made to fail. `World.Installs` says what
follows. Everywhere else an error leaves the world as it was. A torn installation is stored
and answered as an error; the referral of a receiver who is confirmed is then ready and
nobody is told to pay it, and the call cannot be repeated.
-/

namespace Onboarding

open StoreView

/-! ## Stores that are made to fail -/

namespace TableStore

theorem read_of_mem {s : TableStore} {op : StoreOp} (h : op ∈ s.failing) {α : Type}
    (x : Except StoreError α) : ∃ reason, s.read op x = .error (.backend reason) := by
  unfold read guard
  rw [if_pos h]
  exact ⟨_, rfl⟩

end TableStore

namespace StoreKind

variable {kind : StoreKind} {s : kind.State}

/-- Neither store finds a registration where lookups are made to fail. -/
theorem registration_of_failing (h : .getRequest ∈ failing s) (o : Owner) :
    ∃ reason, Store.registration s o = .error (.backend reason) := by
  cases kind with
  | table => exact TableStore.read_of_mem h _
  | indexed => exact absurd h List.not_mem_nil

/-- Neither store moves a referral where that is made to fail. -/
theorem installReferral_of_failing (h : .installReferral ∈ failing s) (o : Owner)
    (time : Timestamp) : ∃ e s', Store.installReferral o time s = (.error e, s') := by
  cases kind with
  | table =>
    obtain ⟨reason, hread⟩ := TableStore.read_of_mem h
      (TableStore.changeReferral o (·.install time) s)
    refine ⟨.backend reason, s, ?_⟩
    show TableStore.write _ _ s = _
    unfold TableStore.write
    rw [hread]
    rfl
  | indexed => exact absurd h List.not_mem_nil

end StoreKind

/-! ## One call -/

section Calls

variable {σ : Type} [Store σ] {receiver : Owner} {w w' : World σ}

/-- A move that is stored is recorded. -/
theorem Installation.record_of_ok {s : σ}
    (h : Store.installReferral receiver w.clock w.store = (.ok (), s)) :
    record receiver w = (.ok (), { w with store := s }) := by
  unfold record
  rw [Computation.bind_of_ok (ServiceM.now_apply w),
    Computation.bind_of_ok (ServiceM.write_of_ok h)]
  rfl

/-- What is answered for a move that is not stored. -/
def Installation.answer : StoreError → ServiceError
  | .notFound _ => .notFound
  | .conflict reason => .invalidTransition reason
  | e => .store e

/-- A move that is not stored changes nothing. -/
theorem Installation.record_of_error {s : σ} {e : StoreError}
    (h : Store.installReferral receiver w.clock w.store = (.error e, s)) :
    record receiver w = (.error (answer e), w) := by
  unfold record
  rw [Computation.bind_of_ok (ServiceM.now_apply w),
    Computation.bind_of_ok (ServiceM.write_of_error h)]
  cases e <;> rfl

theorem markInstalled_of_error {s : σ} {e : StoreError}
    (h : Store.installReferral receiver w.clock w.store = (.error e, s)) :
    markInstalled receiver w = (.error (Installation.answer e), w) :=
  Computation.bind_of_error (Installation.record_of_error h)

/-- **An error comes before the move or behind it**, on every store. -/
theorem markInstalled_eq_error {e : ServiceError} (h : markInstalled receiver w = (.error e, w')) :
    w' = w ∨ ∃ s reason, Store.installReferral receiver w.clock w.store = (.ok (), s) ∧
      Except.found? (Store.registration s receiver) = .error reason ∧ e = .store reason ∧
      w' = { w with store := s } := by
  rcases hmove : Store.installReferral receiver w.clock w.store with ⟨e' | _, s⟩
  · rw [markInstalled_of_error hmove] at h
    cases h
    exact .inl rfl
  · unfold markInstalled at h
    rw [Computation.bind_of_ok (Installation.record_of_ok hmove)] at h
    unfold Installation.notice at h
    rcases ServiceM.find_cases (Store.registration · receiver) { w with store := s } with
      ⟨found, -, hfind⟩ | ⟨reason, hfound, hfind⟩
    · -- whoever is found or missed, the call goes on to its end
      rw [Computation.bind_of_ok hfind] at h
      cases found with
      | none => cases h
      | some r =>
        dsimp only at h
        split at h <;> cases h
    · rw [Computation.bind_of_error hfind] at h
      cases h
      exact .inr ⟨s, reason, rfl, hfound, rfl, rfl⟩

end Calls

/-! ## Moves -/

namespace LawfulStore

variable {σ : Type} [Store σ] [LawfulStore σ] {s : σ} {receiver : Owner}

/-- A referral at its start is moved unless moving is made to fail. -/
theorem installReferral_of_start (hs : Sound s) (hquiet : .installReferral ∉ failing s)
    {f : Referral} (hf : (contents s).referral receiver = some f)
    (hstart : f.status = .registered) (time : Timestamp) :
    ∃ s', Store.installReferral receiver time s = (.ok (), s') ∧
      Becomes s ((contents s).refer
        { f with status := .installed, installedAt := some time }) s' := by
  have hinstall : f.install time = .ok { f with status := .installed, installedAt := some time } :=
    Referral.install_eq_ok.2 ⟨hstart, rfl⟩
  have hmoved : (contents s).moveReferral receiver (·.install time) = .ok _ :=
    Contents.moveReferral_eq_ok.2 ⟨f, _, hf, hinstall, rfl⟩
  obtain ⟨s', hmove⟩ := installReferral_eq_ok hs hquiet hf hstart time
  obtain ⟨hcontents, hbecomes⟩ := (installReferral receiver time hs).of_eq_ok hmove
  rw [Except.ok.inj (hcontents.trans hmoved)] at hbecomes
  exact ⟨s', hmove, hbecomes⟩

/-- A referral that went on from its start is not moved again. -/
theorem installReferral_of_moved (hs : Sound s) (hquiet : .installReferral ∉ failing s)
    {f : Referral} (hf : (contents s).referral receiver = some f)
    (hmoved : f.status ≠ .registered) (time : Timestamp) :
    ∃ s', Store.installReferral receiver time s =
      (.error (.conflict (f.moveMessage .installed)), s') := by
  have hstuck : ¬ f.status.canMoveTo .installed = true :=
    fun h => hmoved (Referral.canMoveTo_installed.1 h)
  have hrefused : (contents s).moveReferral receiver (·.install time) =
      .error (.conflict (f.moveMessage .installed)) := by
    unfold Contents.moveReferral Referral.install
    rw [hf]
    dsimp only
    rw [if_neg hstuck]
  have hwritten := installReferral receiver time hs
  rcases hout : Store.installReferral receiver time s with ⟨result, s'⟩
  rw [hout] at hwritten
  cases hwritten with
  | done _ holds _ _ => cases holds.trans hrefused
  | refused h => rw [Except.error.inj (h.trans hrefused)]; exact ⟨s', rfl⟩
  | broken h => exact absurd h (not_or.2 ⟨hquiet, (isHash_of_referral hs hf).text_ne⟩)

end LawfulStore

/-! ## Torn installations -/

section Tears

variable {σ : Type} [Store σ] [StoreView σ]

/-- The referral of a receiver is at its start, the store moves it, and does not look the
receiver up. -/
structure World.Tears (w : World σ) (receiver : Owner) : Prop where
  starts : ∃ f, (contents w.store).referral receiver = some f ∧ f.status = .registered
  moves : .installReferral ∉ failing w.store
  blind : .getRequest ∈ failing w.store

/-- What an installation that answers an error has done. -/
structure World.Installs (w : World σ) (receiver : Owner) : Prop where
  /-- The referral is as it was, unless the installation is torn. -/
  keeps_iff : (∀ e w', markInstalled receiver w = (.error e, w') →
      (contents w'.store).referral receiver = (contents w.store).referral receiver) ↔
    ¬ w.Tears receiver
  /-- So is everything else. -/
  untouched : ¬ w.Tears receiver → ∀ e w', markInstalled receiver w = (.error e, w') → w' = w
  /-- A torn installation is stored and nobody is left to be paid for it. If the receiver is
  confirmed the referral is ready, and in no surroundings where moves go through can the call
  be made again. -/
  torn : w.Tears receiver → ∃ f s e, (contents w.store).referral receiver = some f ∧
    markInstalled receiver w = (.error (.store e), { w with store := s }) ∧
    contents s = (contents w.store).refer
      { f with status := .installed, installedAt := some w.clock } ∧
    (∀ r, (contents w.store).registration receiver = some r → r.isConfirmed = true →
      (contents s).Payable receiver) ∧
    ∀ later : Surroundings, .installReferral ∉ later.failing → ∃ reason,
      markInstalled receiver (World.surround later { w with store := s }) =
        (.error (.invalidTransition reason), World.surround later { w with store := s })

end Tears

section Torn

variable {kind : StoreKind} {w : World kind.State} {receiver : Owner}

/-- A torn installation is answered with the error of the lookup. -/
theorem World.Tears.markInstalled_eq (hw : w.Good) (h : w.Tears receiver) :
    ∃ f s e, (contents w.store).Refers f ∧ f.receiver = receiver ∧
      markInstalled receiver w = (.error (.store e), { w with store := s }) ∧
      Becomes w.store ((contents w.store).refer
        { f with status := .installed, installedAt := some w.clock }) s := by
  obtain ⟨f, hf, hstart⟩ := h.starts
  have hc := LawfulStore.coherent hw.sound
  obtain ⟨s, hmove, hbecomes⟩ :=
    LawfulStore.installReferral_of_start hw.sound h.moves hf hstart w.clock
  have hblind : .getRequest ∈ failing s := by
    rw [hbecomes.failing_eq]
    exact h.blind
  obtain ⟨reason, hbroken⟩ := StoreKind.registration_of_failing hblind receiver
  have hnotice : Installation.notice receiver { w with store := s } =
      (.error (.store (.backend reason)), { w with store := s }) := by
    unfold Installation.notice
    rcases ServiceM.find_cases (Store.registration · receiver) { w with store := s } with
      ⟨found, hfound, -⟩ | ⟨e, hfound, hfind⟩
    · rw [hbroken] at hfound
      cases hfound
    · rw [hbroken] at hfound
      cases hfound
      exact Computation.bind_of_error hfind
  refine ⟨f, s, .backend reason, hc.refers hf, hc.receiver_eq hf, ?_, hbecomes⟩
  unfold markInstalled
  rw [Computation.bind_of_ok (Installation.record_of_ok hmove), hnotice]

/-- **An error without a tear** has changed nothing. -/
theorem markInstalled_eq_error_of_not_tears (hw : w.Good) (h : ¬ w.Tears receiver)
    {e : ServiceError} {w' : World kind.State}
    (herror : markInstalled receiver w = (.error e, w')) : w' = w := by
  refine (markInstalled_eq_error herror).resolve_right ?_
  rintro ⟨s, reason, hmove, hfound, -, -⟩
  obtain ⟨hmoved, hbecomes⟩ :=
    (LawfulStore.installReferral receiver w.clock hw.sound).of_eq_ok hmove
  obtain ⟨f, f', hf, hinstall, -⟩ := Contents.moveReferral_eq_ok.1 hmoved.symm
  refine h ⟨⟨f, hf, (Referral.install_eq_ok.1 hinstall).1⟩, ?_, ?_⟩
  · intro hfails
    obtain ⟨e', s', hbroken⟩ := StoreKind.installReferral_of_failing hfails receiver w.clock
    cases hmove.symm.trans hbroken
  · have hsearch := LawfulStore.registration receiver hbecomes.sound
    rw [hbecomes.failing_eq] at hsearch
    generalize Store.registration s receiver = x at hsearch hfound
    cases hsearch with
    | found _ => cases hfound
    | missing _ => cases hfound
    | broken hbroken =>
      exact hbroken.resolve_right (LawfulStore.isHash_of_referral hw.sound hf).text_ne

theorem World.Good.installs (hw : w.Good) (receiver : Owner) : w.Installs receiver := by
  have huntouched : ¬ w.Tears receiver → ∀ e w', markInstalled receiver w = (.error e, w') →
      w' = w := fun h e w' => markInstalled_eq_error_of_not_tears hw h
  refine ⟨⟨fun hkeeps h => ?_, fun h e w' herror => ?_⟩, huntouched, fun h => ?_⟩
  · obtain ⟨f, s, e, hf, rfl, herror, hbecomes⟩ := h.markInstalled_eq hw
    obtain ⟨g, hg, hstart⟩ := h.starts
    have hsame : (contents s).referral f.receiver = _ := hkeeps _ _ herror
    rw [hbecomes.contents_eq, Contents.referral_refer, if_pos rfl, hg] at hsame
    rw [← Option.some.inj hsame] at hstart
    cases hstart
  · rw [huntouched h e w' herror]
  · obtain ⟨f, s, e, hf, rfl, herror, hbecomes⟩ := h.markInstalled_eq hw
    have hrow : (contents s).referral f.receiver =
        some { f with status := .installed, installedAt := some w.clock } := by
      rw [hbecomes.contents_eq, Contents.referral_refer, if_pos rfl]
    refine ⟨f, s, e, hf, herror, hbecomes.contents_eq, fun r hr hconfirmed => ?_,
      fun later hquiet => ?_⟩
    · have hr' : (contents s).registration f.receiver = some r := by
        rw [hbecomes.contents_eq]
        exact hr
      exact ⟨_, r, hrow, rfl, hr', hconfirmed⟩
    · have hsound : Sound (failOn later.failing s) := LawfulStore.sound_failOn _ hbecomes.sound
      have hmoves : .installReferral ∉ failing (failOn later.failing s) :=
        fun hfails => hquiet (LawfulStore.failing_failOn _ _ hfails)
      rw [← LawfulStore.contents_failOn later.failing s] at hrow
      obtain ⟨s', hrefused⟩ :=
        LawfulStore.installReferral_of_moved hsound hmoves hrow (by simp) later.clock
      exact ⟨_, markInstalled_of_error (w := World.surround later { w with store := s }) hrefused⟩

end Torn

/-- **An installation that fails has changed nothing exactly if it is not torn**, in every state
that a run comes to, whatever the store was made to fail with. -/
theorem installs_run (kind : StoreKind) (settings : Settings) (clock : Timestamp)
    (acts : List Act) (receiver : Owner) :
    ((World.start clock : World kind.State).run settings acts).Installs receiver :=
  (World.good_run settings (World.good_start clock) acts).installs receiver

/-! ## A referral that is never paid -/

namespace Unseen

/-- The receiver is invited and confirmed, and what waited was tried. Then lookups fail. -/
def acts : List Act :=
  [.call (.register ⟨"a@x.com", Shared.byteLength_first⟩ Shared.wallet none),
    .call (.register ⟨"b@x.com", Shared.byteLength_second⟩ Shared.guestWallet
      (some ⟨"00000002", Shared.byteLength_code⟩)),
    .call (.confirm Shared.second "00000000000000000000000000000003"),
    .background 0,
    .surround { clock := ⟨1700000100⟩, failing := [.getRequest] }]

/-- The world after that. -/
def world : World StoreKind.table.State := (World.start ⟨1700000000⟩).run { } acts

/-- The referral before the installation. -/
def referral : Referral := .start Shared.first Shared.second ⟨1700000000⟩

/-- The receiver. -/
def receiving : Registration :=
  ⟨Shared.second, "b@x.com", Shared.guestWallet, "00000000000000000000000000000003",
    ⟨1700000000⟩, some ⟨1700000000⟩, "00000004", some "00000002"⟩

theorem before_eq : (contents world.store).referral Shared.second = some referral := by
  unfold world World.run acts
  simp only [List.foldl_cons, List.foldl_nil, World.act, Call.after, register,
    Shared.ofEmail_first, Shared.ofEmail_second]
  decide +kernel

theorem after_eq :
    (markInstalled Shared.second world).1 =
        .error (.store (.backend "injected failure in get_request")) ∧
      (contents (markInstalled Shared.second world).2.store).referral Shared.second =
        some { referral with status := .installed, installedAt := some ⟨1700000100⟩ } ∧
      (contents (markInstalled Shared.second world).2.store).registration Shared.second =
        some receiving ∧
      (markInstalled Shared.second world).2.pending = [] := by
  unfold world World.run acts
  simp only [List.foldl_cons, List.foldl_nil, World.act, Call.after, register,
    Shared.ofEmail_first, Shared.ofEmail_second]
  decide +kernel

end Unseen

/-- A confirmed receiver whose installation could not be followed by a lookup has a referral
that is ready, answered as an error, and waited for by nobody. -/
theorem not_keeps_unseen :
    (∃ e, (markInstalled Shared.second Unseen.world).1 = .error e) ∧
      (contents (markInstalled Shared.second Unseen.world).2.store).referral Shared.second ≠
        (contents Unseen.world.store).referral Shared.second ∧
      (contents (markInstalled Shared.second Unseen.world).2.store).Payable Shared.second ∧
      (markInstalled Shared.second Unseen.world).2.pending = [] := by
  obtain ⟨hanswer, hafter, hreceiving, hpending⟩ := Unseen.after_eq
  refine ⟨⟨_, hanswer⟩, ?_, ⟨_, _, hafter, rfl, hreceiving, rfl⟩, hpending⟩
  rw [hafter, Unseen.before_eq]
  decide

end Onboarding
