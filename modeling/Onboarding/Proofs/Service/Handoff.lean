import Onboarding.Proofs.Service.Account
import Onboarding.Proofs.Service.Settlement
/-!
# Handoffs — a confirmation and an installation that race

A referral is paid when its receiver has installed the app and is confirmed. Each of the two
calls stores its own half first and looks for the other half, or leaves the advance for
later, only behind that. So whichever stores last finds the first half stored, and while a
referral is ready it waits to be advanced or a task is about to see to it
(`Books.Attended`). Both calls may leave an advance. The account of the referral
(`Books.Accounted`) then says that one of them pays and the other finds nothing to pay.
-/

namespace Onboarding

open StoreView

namespace Task

/-- A task that is about to leave an advance of the receiver's referral, or makes one. -/
def Attends (receiver : Owner) : Task → Prop
  | greeting o _ | noticing o | advancing o => o = receiver
  | _ => False

/-- A confirmation that failed because the stake was refused. -/
def stakeRefused : Task → Bool
  | confirmed _ (.error (.chain _)) => true
  | _ => false

/-- A task that is about to confirm a receiver, unless the stake is refused. -/
def Confirms (receiver : Owner) (code : String) : Task → Prop
  | confirming o code' => o = receiver ∧ code' = code
  | staking o _ | recording o _ => o = receiver
  | task => task.stakeRefused = true

theorem not_attends_of_hasEnded {task : Task} {receiver : Owner} (h : task.hasEnded = true) :
    ¬ task.Attends receiver := by
  intro hattends
  cases task with
  | greeting _ _ | noticing _ | advancing _ => cases h
  | _ => exact hattends

/-- A confirmation that has ended and is still to confirm somebody was refused the stake. -/
theorem stakeRefused_of_confirms {task : Task} {receiver : Owner} {code : String}
    (h : task.Confirms receiver code) (hended : task.hasEnded = true) :
    task.stakeRefused = true := by
  cases task with
  | confirming _ _ | staking _ _ | recording _ _ => cases hended
  | _ => exact h

end Task

/-- A referral that is ready waits to be advanced, or a task attends to it. -/
def Books.Attended (b : Books) (ts : List Task) (receiver : Owner) : Prop :=
  b.contents.Payable receiver → receiver ∈ b.pending ∨ ∃ task ∈ ts, task.Attends receiver

/-! ## Who attends to what is ready -/

namespace Turn

variable {settings : Settings} {now : Timestamp} {b b' : Books} {task task' : Task}
  {receiver : Owner}

theorem mem_pending (h : Turn settings now b task b' task') (hr : receiver ∈ b.pending) :
    receiver ∈ b'.pending := by
  cases h <;> first | exact hr | exact List.mem_append_left _ hr

/-- **What is ready after a step** was ready before it and is not the task's concern, or
is attended to. -/
theorem payable_cases (h : Turn settings now b task b' task') (hsafe : b.failing = [])
    (hlinked : b.contents.Linked) (hr : b'.contents.Payable receiver) :
    (b.contents.Payable receiver ∧ ¬ task.Attends receiver) ∨ receiver ∈ b'.pending ∨
      task'.Attends receiver := by
  cases h with
  | ended h => exact .inl ⟨hr, Task.not_attends_of_hasEnded h⟩
  | found _ _ _ | unfound _ | staked | unstaked | unrecorded _ | unmoved _ | tried _ =>
    exact .inl ⟨hr, id⟩
  | @recorded q _ _ entry =>
    by_cases ho : receiver = q.owner
    · exact .inr (.inr ho.symm)
    · rw [entry.of_confirmed.2.2] at hr
      exact .inl ⟨hr.congr rfl (Contents.registration_put_of_ne ho), id⟩
  | @moved f _ entry =>
    by_cases ho : receiver = f.receiver
    · exact .inr (.inr ho.symm)
    · rw [entry.of_installed.2.2] at hr
      exact .inl ⟨hr.congr (Contents.referral_refer_of_ne ho) rfl, id⟩
  | @greeted o _ =>
    by_cases ho : o = receiver
    · exact .inr (.inl (by simp [ho]))
    · exact .inl ⟨hr, ho⟩
  | @noticed o _ waiting noticed =>
    by_cases ho : o = receiver
    · rcases noticed with rfl | ⟨-, hopen⟩
      · exact .inr (.inl (by simp [ho]))
      · -- whoever was not noticed is not confirmed, and so not ready
        obtain ⟨f, r, -, -, hregistered, hconfirmed⟩ := hr
        subst ho
        rw [Registration.isConfirmed, hopen hsafe r hregistered] at hconfirmed
        cases hconfirmed
    · exact .inl ⟨hr, ho⟩
  | @fixed p _ entry =>
    obtain ⟨hne, hold⟩ := entry.payable_of_paid hr
    exact .inl ⟨hold, fun ho => hne ho.symm⟩
  | @unfixed o _ reason =>
    refine .inl ⟨hr, fun ho => ?_⟩
    cases ho
    exact reason hsafe hlinked hr

end Turn

namespace Stir

variable {settings : Settings} {now : Timestamp} {b b' : Books} {ts ts' : List Task} {m : Move}
  {receiver : Owner}

theorem linked (h : Stir settings now b ts m b' ts') (hb : b.contents.Linked) :
    b'.contents.Linked := by
  obtain ⟨entry, b₁, hstep, hcontents⟩ := h.contents
  rw [hcontents]
  exact hstep.linked hb

/-- **Whatever is ready is attended to**, as long as the store does not fail. -/
theorem attended (h : Stir settings now b ts m b' ts') (hsafe : b.failing = [])
    (hlinked : b.contents.Linked) (hb : b.Attended ts receiver) : b'.Attended ts' receiver := by
  intro hr
  cases h with
  | rested | surrounded _ => exact hb hr
  | entered step _ =>
    rcases step.payable_cases hsafe hlinked hr with hold | hwaits
    · exact (hb hold).imp_left step.mem_pending
    · exact .inl hwaits
  | began _ =>
    refine (hb hr).imp_right fun ⟨task, htask, hattends⟩ => ?_
    exact ⟨task, List.mem_append_left _ htask, hattends⟩
  | @turned before behind task task' _ turn =>
    rcases turn.payable_cases hsafe hlinked hr with ⟨hold, hidle⟩ | hwaits | hattends
    · refine (hb hold).imp turn.mem_pending fun ⟨other, hother, hattends⟩ => ?_
      -- another task attends, and that one stays as it is
      refine ⟨other, ?_, hattends⟩
      rcases List.mem_append.1 hother with hbefore | hhere
      · exact List.mem_append_left _ hbefore
      · rcases List.mem_cons.1 hhere with rfl | hbehind
        · exact absurd hattends hidle
        · exact List.mem_append_right _ (List.mem_cons_of_mem _ hbehind)
    · exact .inl hwaits
    · exact .inr ⟨task', by simp, hattends⟩
  | @woken _ place other waiting =>
    rcases hb hr with hwaits | ⟨task, htask, hattends⟩
    · rcases List.mem_cons.1 (mem_of_getElem? waiting hwaits) with rfl | hstill
      · exact .inr ⟨.advancing receiver, by simp, rfl⟩
      · exact .inl hstill
    · exact .inr ⟨task, List.mem_append_left _ htask, hattends⟩

end Stir

/-! ## The two calls -/

/-- The registration of a receiver has the code that was submitted. -/
def Contents.Opens (c : Contents) (receiver : Owner) (code : String) : Prop :=
  ∃ r, c.registration receiver = some r ∧ codesMatch r.code code = true

/-- The referral of a receiver has left its start. -/
def Contents.Started (c : Contents) (receiver : Owner) : Prop :=
  ∃ f, c.referral receiver = some f ∧ f.status ≠ .registered

/-- **A confirmation goes on until the receiver is confirmed**, unless the stake is
refused. -/
theorem Turn.confirms {settings : Settings} {now : Timestamp} {b b' : Books} {task task' : Task}
    {receiver : Owner} {code : String} (h : Turn settings now b task b' task')
    (hsafe : b.failing = []) (hopens : b.contents.Opens receiver code)
    (htask : task.Confirms receiver code) :
    b'.contents.confirms receiver = true ∨ task'.Confirms receiver code := by
  obtain ⟨r, hr, hright⟩ := hopens
  cases h with
  | ended _ => exact .inr htask
  | found _ _ _ => exact .inr htask.1
  | unfound reason =>
    obtain ⟨rfl, rfl⟩ := htask
    refine .inl ?_
    rw [Contents.confirms, hr, Option.any_some]
    exact reason hsafe r hr hright
  | staked => exact .inr htask
  | unstaked => exact .inr rfl
  | recorded entry =>
    cases htask
    exact .inl (confirms_of_confirmed entry).2
  | unrecorded reason =>
    cases htask
    refine .inl ?_
    rw [Contents.confirms, hr, Option.any_some]
    exact reason hsafe r hr
  | greeted | moved _ | unmoved _ | noticed _ | fixed _ | unfixed _ | tried _ => cases htask

/-- What holds from the time on at which a confirmation and an installation of a receiver
have come in, the one at this place and the other behind it, while the store does not
fail. -/
structure Books.Handing (b : Books) (ts : List Task) (receiver : Owner) (code : String)
    (place : Nat) : Prop where
  safe : b.failing = []
  linked : b.contents.Linked
  attended : b.Attended ts receiver
  opens : b.contents.Opens receiver code
  row : ∃ f, b.contents.referral receiver = some f
  confirming : b.contents.confirms receiver = true ∨
    ∃ task, ts[place]? = some task ∧ task.Confirms receiver code
  installing : b.contents.Started receiver ∨ ts[place + 1]? = some (.installing receiver)

namespace Stir

variable {settings : Settings} {now : Timestamp} {b b' : Books} {ts ts' : List Task} {m : Move}
  {receiver : Owner} {code : String} {place : Nat}

theorem opens (h : Stir settings now b ts m b' ts') (hb : b.contents.Opens receiver code) :
    b'.contents.Opens receiver code := by
  obtain ⟨r, hr, hright⟩ := hb
  obtain ⟨entry, b₁, hstep, hcontents⟩ := h.contents
  obtain ⟨r', hr', hmove⟩ := hstep.move hr
  rw [← hcontents] at hr'
  exact ⟨r', hr', hmove.develops.code_eq ▸ hright⟩

theorem started (h : Stir settings now b ts m b' ts') (hb : b.contents.Started receiver) :
    b'.contents.Started receiver := by
  obtain ⟨f, hf, hstatus⟩ := hb
  obtain ⟨entry, b₁, hstep, hcontents⟩ := h.contents
  obtain ⟨f', hf', hstatus'⟩ := hstep.started hf hstatus
  rw [← hcontents] at hf'
  exact ⟨f', hf', hstatus'⟩

/-- **Every move keeps the two calls going**, in whatever order they take their steps. -/
theorem handing (h : Stir settings now b ts m b' ts') (hm : m.Safe)
    (hb : b.Handing ts receiver code place) : b'.Handing ts' receiver code place where
  safe := h.failing_eq_nil hm hb.safe
  linked := h.linked hb.linked
  attended := h.attended hb.safe hb.linked hb.attended
  opens := h.opens hb.opens
  row := by
    obtain ⟨f, hf⟩ := hb.row
    obtain ⟨f', hf', -⟩ := h.evolves.referral hf
    exact ⟨f', hf'⟩
  confirming := by
    rcases hb.confirming with hconfirms | ⟨task, htask, hconfirms⟩
    · exact .inl (h.evolves.confirms hconfirms)
    · obtain ⟨task', htask', rfl | hturn⟩ := h.task htask
      · exact .inr ⟨_, htask', hconfirms⟩
      · exact (hturn.confirms hb.safe hb.opens hconfirms).imp_right fun h => ⟨task', htask', h⟩
  installing := by
    rcases hb.installing with hstarted | htask
    · exact .inl (h.started hstarted)
    obtain ⟨task', htask', rfl | hturn⟩ := h.task htask
    · exact .inr htask'
    · refine .inl ?_
      cases hturn with
      | ended hended => cases hended
      | moved entry =>
        obtain ⟨-, -, hcontents⟩ := entry.of_installed
        rw [hcontents]
        exact ⟨_, Contents.referral_refer_self _ _, nofun⟩
      | unmoved reason =>
        obtain ⟨f, hf⟩ := hb.row
        exact ⟨f, hf, reason hb.safe f hf⟩

end Stir

/-! ## Whole runs -/

/-- The referral of a receiver is confirmed, and one task paid it: each side has the reward
that was fixed, and the transfer of it was tried once unless it is nothing. -/
def Crowd.PaidOnce {σ : Type} [Store σ] [StoreView σ] (c : Crowd σ) (receiver : Owner) : Prop :=
  ∃ f p failure, (contents c.world.store).referral receiver = some f ∧ f.status = .confirmed ∧
    c.tasks.filter (·.pays receiver) = [.paying p [] failure] ∧
    ∀ side : Side, (contents c.world.store).Fixed f p side ∧
      c.world.books.attempts side receiver = Side.owed (side.transfer p)

section Runs

variable {σ : Type} [Store σ] [LawfulStore σ] {settings : Settings} {c : Crowd σ}

/-- Every referral is accounted for, whatever was interleaved and whatever failed. -/
theorem Crowd.accounted_run (settings : Settings) (clock : Timestamp) (moves : List Move)
    (receiver : Owner) :
    ((start clock : Crowd σ).run settings moves).world.books.Accounted
      ((start clock : Crowd σ).run settings moves).tasks receiver := by
  have hstart : (start clock : Crowd σ).world.books.Fair settings [] ∧
      (start clock : Crowd σ).world.books.Accounted [] receiver :=
    ⟨fair_run settings clock [], by
      show (World.start clock : World σ).books.Accounted [] receiver
      rw [World.books_start]
      exact .unpaid nofun rfl fun _ => rfl⟩
  refine (stirs_run (P := fun b ts => b.Fair settings ts ∧ b.Accounted ts receiver)
    (good_start clock) hstart ?_).2
  intro now b ts m b' ts' _ _ hb hstir
  exact ⟨hstir.fair hb.1, hstir.accounted hb.1.faithful hb.2⟩

theorem Crowd.linked_run (settings : Settings) (clock : Timestamp) (moves : List Move) :
    (contents ((start clock : Crowd σ).run settings moves).world.store).Linked := by
  refine stirs_run (P := fun b _ => b.contents.Linked) (good_start clock) ?_
    fun _ _ _ _ _ _ _ _ hb hstir => hstir.linked hb
  show (contents (World.start clock : World σ).store).Linked
  rw [World.start, LawfulStore.contents_empty]
  exact Contents.linked_empty

/-- **Where everything has come to its end**, the referral was paid once. -/
theorem Books.Handing.paidOnce {receiver : Owner} {code : String} {place : Nat}
    (h : c.world.books.Handing c.tasks receiver code place)
    (haccounted : c.world.books.Accounted c.tasks receiver)
    (hended : ∀ task ∈ c.tasks, task.hasEnded = true) (hawake : receiver ∉ c.world.pending)
    (hstake : ∀ task ∈ c.tasks[place]?, task.stakeRefused = false) : c.PaidOnce receiver := by
  -- both halves are stored
  have hconfirmed : c.world.books.contents.confirms receiver = true := by
    refine h.confirming.resolve_right fun ⟨task, htask, hconfirms⟩ => ?_
    have hrefused := Task.stakeRefused_of_confirms hconfirms
      (hended task (List.mem_of_getElem? htask))
    rw [hstake task htask] at hrefused
    cases hrefused
  obtain ⟨f, hf, hstatus⟩ : c.world.books.contents.Started receiver := by
    refine h.installing.resolve_right fun htask => ?_
    cases hended _ (List.mem_of_getElem? htask)
  -- and nobody is left who would attend to a referral that is ready
  have hunpayable : ¬ c.world.books.contents.Payable receiver := by
    intro hpayable
    rcases h.attended hpayable with hwaits | ⟨task, htask, hattends⟩
    · exact hawake hwaits
    · exact Task.not_attends_of_hasEnded (hended task htask) hattends
  cases haccounted with
  | unpaid status _ _ =>
    obtain ⟨r, hr, hready⟩ := (Option.any_eq_true _ _).1 hconfirmed
    refine absurd ⟨f, r, hf, ?_, hr, hready⟩ hunpayable
    cases hcase : f.status with
    | registered => exact absurd hcase hstatus
    | installed => rfl
    | confirmed => exact absurd hcase (status f hf)
  | @paid f p due failure row status receiver_eq payer fixed rest stands =>
    have hpayer : Task.paying p due failure ∈ c.tasks := by
      have hmem : Task.paying p due failure ∈ c.tasks.filter (·.pays receiver) := by
        rw [payer]
        exact List.mem_singleton_self _
      exact (List.mem_filter.1 hmem).1
    cases due with
    | cons t due => cases hended _ hpayer
    | nil =>
      refine ⟨f, p, failure, row, status, payer, fun side => ⟨fixed side, ?_⟩⟩
      cases stands side with
      | waiting due _ => cases due
      | tried _ once => exact receiver_eq ▸ once

end Runs

/-- **A confirmation and an installation may race**: when both have come in for a referral
at its start, the store does not fail from then on and the stake is not refused, then in
whatever order they and all others take their steps, in the end the referral is paid, by
one task, and no reward was tried twice or left out. -/
theorem paidOnce_of_race (kind : StoreKind) (settings : Settings) (clock : Timestamp)
    (before after : List Move) (receiver : Owner) (code : String) {c c' : Crowd kind.State}
    (hc : c = (Crowd.start clock).run settings before)
    (hsafe : failing c.world.store = [])
    (hrow : ∃ f, (contents c.world.store).referral receiver = some f ∧ f.status = .registered)
    (hright : (contents c.world.store).Opens receiver code)
    (hc' : c' = c.run settings
      (.call (.confirm receiver code) :: .call (.markInstalled receiver) :: after))
    (hafter : ∀ m ∈ after, m.Safe)
    (hended : ∀ task ∈ c'.tasks, task.hasEnded = true)
    (hawake : receiver ∉ c'.world.pending)
    (hstake : ∀ task ∈ c'.tasks[c.tasks.length]?, task.stakeRefused = false) :
    c'.PaidOnce receiver := by
  obtain ⟨f, hf, hregistered⟩ := hrow
  have haccounted : c'.world.books.Accounted c'.tasks receiver := by
    rw [hc', hc, ← Crowd.run_append]
    exact Crowd.accounted_run settings clock _ receiver
  -- both calls are begun, and nothing else has changed
  have hgood : c.world.Good := hc ▸ Crowd.good_run settings (Crowd.good_start clock) before
  have hbegun : c.world.books.Handing
      (c.tasks ++ [.confirming receiver code] ++ [.installing receiver]) receiver code
      c.tasks.length := by
    refine ⟨hsafe, hc ▸ Crowd.linked_run settings clock before, ?_, hright, ⟨f, hf⟩,
      .inr ⟨.confirming receiver code, by simp, rfl, rfl⟩, .inr (by simp)⟩
    rintro ⟨g, r, hg, hinstalled, -⟩
    cases Option.some.inj (hf.symm.trans hg)
    rw [hregistered] at hinstalled
    cases hinstalled
  have hrun : c'.world.books.Handing c'.tasks receiver code c.tasks.length := by
    rw [hc']
    exact Crowd.stirs_run
      (c := ⟨c.world, c.tasks ++ [.confirming receiver code] ++ [.installing receiver]⟩)
      (P := fun b ts => b.Handing ts receiver code c.tasks.length) hgood hbegun
      fun now b ts m b' ts' _ hm hb hstir => hstir.handing (hafter m hm) hb
  exact hrun.paidOnce haccounted hended hawake hstake

/-! ## Two advances for one referral -/

namespace Raced

/-- The code that was mailed to the receiver. -/
def code : String := "00000000000000000000000000000003"

/-- A receiver is registered with the code of an inviter. -/
def before : List Move :=
  [.call (.register ⟨"a@x.com", Shared.byteLength_first⟩ Shared.wallet none),
    .call (.register ⟨"b@x.com", Shared.byteLength_second⟩ Shared.guestWallet
      (some ⟨"00000002", Shared.byteLength_code⟩))]

/-- The receiver is confirmed between the two steps of the installation. So both calls leave
an advance, and the second one of them gets to pay. -/
def after : List Move :=
  [.step 0, .step 1, .step 0, .step 0, .step 1, .step 0, .wake 0, .wake 0,
    .step 3, .step 2, .step 3, .step 3]

/-- The crowd in which both calls come in. -/
def crowd : Crowd StoreKind.table.State := (Crowd.start ⟨1700000000⟩).run { } before

/-- The crowd in which every call has ended. -/
def finish : Crowd StoreKind.table.State :=
  crowd.run { } (.call (.confirm Shared.second code) :: .call (.markInstalled Shared.second) ::
    after)

theorem crowd_ready :
    failing crowd.world.store = [] ∧
      (contents crowd.world.store).referral Shared.second =
        some (.start Shared.first Shared.second ⟨1700000000⟩) ∧
      ((contents crowd.world.store).registration Shared.second).any
        (codesMatch ·.code code) = true := by
  unfold crowd Crowd.run before
  simp only [List.foldl_cons, List.foldl_nil, Crowd.move, Call.begin?, Call.after, register,
    Shared.ofEmail_first, Shared.ofEmail_second]
  decide +kernel

theorem finish_ended :
    (∀ task ∈ finish.tasks, task.hasEnded = true) ∧ Shared.second ∉ finish.world.pending ∧
      ∀ task ∈ finish.tasks[crowd.tasks.length]?, task.stakeRefused = false := by
  unfold finish crowd Crowd.run before after
  simp only [List.foldl_cons, List.foldl_nil, Crowd.move, Call.begin?, Call.after, register,
    Shared.ofEmail_first, Shared.ofEmail_second]
  decide +kernel

end Raced

/-- Two advances are left, and one of them pays. -/
theorem paidOnce_of_race_both :
    failing Raced.crowd.world.store = [] ∧
      (contents Raced.crowd.world.store).Opens Shared.second Raced.code ∧
      Raced.finish.PaidOnce Shared.second := by
  obtain ⟨hsafe, hrow, hany⟩ := Raced.crowd_ready
  obtain ⟨hended, hawake, hstake⟩ := Raced.finish_ended
  have hright : (contents Raced.crowd.world.store).Opens Shared.second Raced.code :=
    (Option.any_eq_true _ _).1 hany
  have hafter : ∀ m ∈ Raced.after, m.Safe := by simp [Raced.after, Move.Safe]
  refine ⟨hsafe, hright, ?_⟩
  have hcrowd : Raced.crowd = (Crowd.start ⟨1700000000⟩).run { } Raced.before := rfl
  exact paidOnce_of_race .table { } ⟨1700000000⟩ Raced.before Raced.after _ _ hcrowd hsafe
    ⟨_, hrow, rfl⟩ hright rfl hafter hended hawake hstake

end Onboarding
