import Onboarding.Proofs.Service.Evolution
import Onboarding.Proofs.Service.Payout
import Onboarding.Proofs.Service.Confirmation
/-!
# Tasks — calls between two of their steps

A confirmation, an installation and an advance take several steps, and other calls may run
between them. A `Task` says how far such a call has come and what it carries along: the
registration as it was read, or the transfers that are still due. `Task.step` takes one
step of the call, and a task that is left alone comes to what the call comes to
(`confirm_eq_alone` and its like). `Turn` lists what one step may do to the books. What it
does to the contents is what one of the entries does (`Turn.contents`).
-/

namespace Onboarding

open StoreView

/-- A call that takes several steps, by how far it has come. -/
inductive Task where
  | confirming (owner : Owner) (code : String)
  /-- The code was right, and the stake comes next. -/
  | staking (owner : Owner) (r : Registration)
  /-- The stake was accepted, and the confirmation has to be stored. -/
  | recording (owner : Owner) (r : Registration)
  | greeting (owner : Owner) (r : Registration)
  | confirmed (owner : Owner) (answer : Except ServiceError Unit)
  | installing (receiver : Owner)
  /-- The installation is stored, and it is looked up whether the receiver is confirmed. -/
  | noticing (receiver : Owner)
  | installed (receiver : Owner) (answer : Except ServiceError Unit)
  | advancing (receiver : Owner)
  /-- The rewards are fixed, and these transfers are still due. -/
  | paying (p : Payout) (due : List Transfer) (failure : Option ChainError)
  /-- The advance had nothing to pay. -/
  | idle (receiver : Owner) (answer : Except ServiceError (Option Payout))

namespace Task

/-- The call has returned. -/
def hasEnded : Task → Bool
  | confirmed _ _ | installed _ _ | idle _ _ | paying _ [] _ => true
  | _ => false

section Steps

variable {σ α : Type} [Store σ]

/-- A step that was taken, and where it leads. -/
def lead (x : ServiceM σ α) (next : α → Task) (stop : ServiceError → Task) (w : World σ) :
    Task × World σ :=
  match x w with
  | (.ok a, w') => (next a, w')
  | (.error e, w') => (stop e, w')

/-- The next step of a call. -/
def step (settings : Settings) : Task → World σ → Task × World σ
  | confirming o code =>
    lead (Confirmation.check o code) (staking o) fun e => confirmed o (.error e)
  | staking o r =>
    lead (Confirmation.grantStake settings o r) (fun _ => recording o r)
      fun e => confirmed o (.error e)
  | recording o r =>
    lead (Confirmation.record o) (fun _ => greeting o r) fun e => confirmed o (.error e)
  | greeting o r =>
    lead (Confirmation.greet o r) (fun _ => confirmed o (.ok ())) fun e => confirmed o (.error e)
  | installing o =>
    lead (Installation.record o) (fun _ => noticing o) fun e => installed o (.error e)
  | noticing o =>
    lead (Installation.notice o) (fun _ => installed o (.ok ())) fun e => installed o (.error e)
  | advancing o =>
    lead (ServiceM.now >>= fun now => ServiceM.transaction (Payout.plan settings o now))
      (fun
        | none => idle o (.ok none)
        | some p => paying p p.transfers none)
      fun e => idle o (.error e)
  | paying p (t :: due) failure =>
    -- only an interrupted transfer keeps those behind it from being tried
    lead (Payout.tryPay t) (fun e => paying p due (failure.or e))
      fun _ => paying p [] (some .interrupted)
  | task => fun w => (task, w)

/-- A task after as many steps of its own, with nothing between them. -/
def alone (settings : Settings) : Nat → Task → World σ → Task × World σ
  | 0, task, w => (task, w)
  | n + 1, task, w => alone settings n (task.step settings w).1 (task.step settings w).2

end Steps

/-! ## Left alone -/

section Alone

variable {σ : Type} [Store σ] {settings : Settings}

theorem step_of_hasEnded {task : Task} (h : task.hasEnded = true) (w : World σ) :
    task.step settings w = (task, w) := by
  cases task with
  | confirmed _ _ | installed _ _ | idle _ _ => rfl
  | paying p due failure =>
    cases due with
    | nil => rfl
    | cons t due => cases h
  | _ => cases h

/-- A call that has returned does nothing more. -/
theorem alone_of_hasEnded {task : Task} (h : task.hasEnded = true) (n : Nat) (w : World σ) :
    alone settings n task w = (task, w) := by
  induction n with
  | zero => rfl
  | succ n ih => rw [alone, step_of_hasEnded h, ih]

end Alone

end Task

/-- Only an interruption keeps a transfer from being tried. -/
theorem Payout.tryPay_error {σ : Type} {t : Transfer} {w w' : World σ} {e : ServiceError}
    (h : tryPay t w = (.error e, w')) : e = .chain .interrupted := by
  unfold tryPay at h
  split at h
  · cases h
  · split at h <;> cases h
    rfl

section Calls

variable {σ : Type} [Store σ] (settings : Settings) (w : World σ)

/-- **A confirmation is its four steps**, if nothing comes between them. -/
theorem confirm_eq_alone (owner : Owner) (code : String) :
    (Task.confirming owner code).alone settings 4 w =
      (.confirmed owner (confirm settings owner code w).1, (confirm settings owner code w).2) := by
  unfold confirm
  rcases hcheck : Confirmation.check owner code w with ⟨e | r, w₁⟩
  · rw [Computation.bind_of_error hcheck]
    simp only [Task.alone, Task.step, Task.lead, hcheck]
  rw [Computation.bind_of_ok hcheck]
  rcases hpay : Confirmation.grantStake settings owner r w₁ with ⟨e | _, w₂⟩
  · rw [Computation.bind_of_error hpay]
    simp only [Task.alone, Task.step, Task.lead, hcheck, hpay]
  rw [Computation.bind_of_ok hpay]
  rcases hrecord : Confirmation.record owner w₂ with ⟨e | _, w₃⟩
  · rw [Computation.bind_of_error hrecord]
    simp only [Task.alone, Task.step, Task.lead, hcheck, hpay, hrecord]
  rw [Computation.bind_of_ok hrecord]
  simp only [Task.alone, Task.step, Task.lead, hcheck, hpay, hrecord]
  rfl

/-- **An installation is its two steps**, if nothing comes between them. -/
theorem markInstalled_eq_alone (receiver : Owner) :
    (Task.installing receiver).alone settings 2 w =
      (.installed receiver (markInstalled receiver w).1, (markInstalled receiver w).2) := by
  unfold markInstalled
  rcases hrecord : Installation.record receiver w with ⟨e | _, w₁⟩
  · rw [Computation.bind_of_error hrecord]
    simp only [Task.alone, Task.step, Task.lead, hrecord]
  rw [Computation.bind_of_ok hrecord]
  rcases hnotice : Installation.notice receiver w₁ with ⟨e | _, w₂⟩ <;>
    simp only [Task.alone, Task.step, Task.lead, hrecord, hnotice]

/-- What an advance that has returned answers. -/
def Task.payout? : Task → Option (Except ServiceError (Option Payout))
  | idle _ answer => some answer
  | paying p [] none => some (.ok (some p))
  | paying _ [] (some e) => some (.error (.chain e))
  | _ => none

namespace Payout

/-- Transfers that are due are made one by one. -/
theorem payAll_eq_alone (p : Payout) (due : List Transfer) (failure : Option ChainError) :
    ∃ task : Task, (Task.paying p due failure).alone settings due.length w =
        (task, (payAll due failure w).2) ∧
      task.payout? = some ((payAll due failure w).1.map fun _ => some p) := by
  induction due generalizing failure w with
  | nil => exact ⟨.paying p [] failure, by cases failure <;> rfl, by cases failure <;> rfl⟩
  | cons t due ih =>
    rw [payAll, List.length_cons]
    rcases hpay : tryPay t w with ⟨e | failed, w₁⟩
    · cases tryPay_error hpay
      rw [Computation.bind_of_error hpay]
      simp only [Task.alone, Task.step, Task.lead, hpay]
      have hended : (Task.paying p [] (some .interrupted)).hasEnded = true := rfl
      exact ⟨_, Task.alone_of_hasEnded hended _ _, rfl⟩
    · rw [Computation.bind_of_ok hpay]
      simp only [Task.alone, Task.step, Task.lead, hpay]
      exact ih _ _

end Payout

/-- **An advance is the transaction and the transfers**, if nothing comes between them. -/
theorem advanceReferral_eq_alone (receiver : Owner) :
    ∃ task : Task, (Task.advancing receiver).alone settings 3 w =
        (task, (advanceReferral settings receiver w).2) ∧
      task.payout? = some (advanceReferral settings receiver w).1 := by
  unfold advanceReferral
  rw [Computation.bind_of_ok (ServiceM.now_apply w)]
  rcases hplan : ServiceM.transaction (Payout.plan settings receiver w.clock) w with
    ⟨e | _ | p, w₁⟩
  · rw [Computation.bind_of_error hplan]
    simp only [Task.alone, Task.step, Task.lead, Computation.bind_of_ok (ServiceM.now_apply w),
      hplan]
    exact ⟨_, rfl, rfl⟩
  · rw [Computation.bind_of_ok hplan]
    simp only [Task.alone, Task.step, Task.lead, Computation.bind_of_ok (ServiceM.now_apply w),
      hplan]
    exact ⟨_, rfl, rfl⟩
  · rw [Computation.bind_of_ok hplan]
    obtain ⟨task, halone, hpayout⟩ := Payout.payAll_eq_alone settings w₁ p p.transfers none
    refine ⟨task, ?_, ?_⟩
    · rw [Task.alone, Task.step, Task.lead, Computation.bind_of_ok (ServiceM.now_apply w), hplan]
      dsimp only
      rw [Computation.bind_pure_snd]
      exact halone
    · rw [hpayout]
      dsimp only
      rw [Computation.bind_apply]
      rcases Payout.payAll p.transfers none w₁ with ⟨_ | _, _⟩ <;> rfl

end Calls

/-! ## What a step does to the books -/

/-- **The steps there are**: what a task may do next, and what it then does to the books. A
step that gives up says why, as far as the store does not fail. What a step stores is what
the entry of the whole call would store. -/
inductive Turn (settings : Settings) (now : Timestamp) (b : Books) : Task → Books → Task → Prop
  | ended {task : Task} (h : task.hasEnded = true) : Turn settings now b task b task
  | found {r : Registration} {code : String}
      (held : b.contents.Holds r)
      (right : codesMatch r.code code = true)
      (fresh : r.confirmedAt = none) :
    Turn settings now b (.confirming r.owner code) b (.staking r.owner r)
  | unfound {o : Owner} {code : String} {e : ServiceError}
      (reason : b.failing = [] → ∀ r, b.contents.registration o = some r →
        codesMatch r.code code = true → r.isConfirmed = true) :
    Turn settings now b (.confirming o code) b (.confirmed o (.error e))
  | staked {o : Owner} {r : Registration} :
    Turn settings now b (.staking o r)
      { b with transfers := b.transfers ++
        [⟨r.address, settings.initialStake, Confirmation.stakeMemo o⟩] } (.recording o r)
  | unstaked {o : Owner} {r : Registration} {e : ChainError} :
    Turn settings now b (.staking o r)
      { b with refusals := b.refusals ++
        [⟨r.address, settings.initialStake, Confirmation.stakeMemo o⟩] }
      (.confirmed o (.error (.chain e)))
  /-- What is confirmed is what is stored by now. -/
  | recorded {q r : Registration} {b' : Books} (entry : Step settings now b (.confirmed q) b') :
    Turn settings now b (.recording q.owner r) { b with contents := b'.contents }
      (.greeting q.owner r)
  | unrecorded {o : Owner} {r : Registration} {e : ServiceError}
      (reason : b.failing = [] → ∀ q, b.contents.registration o = some q →
        q.isConfirmed = true) :
    Turn settings now b (.recording o r) b (.confirmed o (.error e))
  | greeted {o : Owner} {r : Registration} :
    Turn settings now b (.greeting o r)
      { b with outbox := b.outbox ++ [.welcome r.email], pending := b.pending ++ [o] }
      (.confirmed o (.ok ()))
  | moved {f : Referral} {b' : Books} (entry : Step settings now b (.installed f) b') :
    Turn settings now b (.installing f.receiver) { b with contents := b'.contents }
      (.noticing f.receiver)
  | unmoved {o : Owner} {e : ServiceError}
      (reason : b.failing = [] → ∀ f, b.contents.referral o = some f → f.status ≠ .registered) :
    Turn settings now b (.installing o) b (.installed o (.error e))
  | noticed {o : Owner} {answer : Except ServiceError Unit} {waiting : List Owner}
      (noticed : waiting = [o] ∨ waiting = [] ∧ (b.failing = [] → ∀ r,
        b.contents.registration o = some r → r.confirmedAt = none)) :
    Turn settings now b (.noticing o) { b with pending := b.pending ++ waiting }
      (.installed o answer)
  | fixed {p : Payout} {b' : Books} (entry : Step settings now b (.paid p) b') :
    Turn settings now b (.advancing p.receiver) { b with contents := b'.contents }
      (.paying p p.transfers none)
  | unfixed {o : Owner} {answer : Except ServiceError (Option Payout)}
      (reason : b.failing = [] → b.contents.Linked → ¬ b.contents.Payable o) :
    Turn settings now b (.advancing o) b (.idle o answer)
  | tried {p : Payout} {t : Transfer} {due accepted refused : List Transfer}
      {failure failure' : Option ChainError} (sent : Sent [t] accepted refused) :
    Turn settings now b (.paying p (t :: due) failure)
      { b with transfers := b.transfers ++ accepted, refusals := b.refusals ++ refused }
      (.paying p due failure')

namespace Turn

variable {settings : Settings} {now : Timestamp} {b b' : Books} {task task' : Task}

/-- **A step of a task does to the contents what an entry does.** -/
theorem contents (h : Turn settings now b task b' task') :
    ∃ entry b₁, Step settings now b entry b₁ ∧ b'.contents = b₁.contents := by
  cases h with
  | recorded entry | moved entry | fixed entry => exact ⟨_, _, entry, rfl⟩
  | _ => exact ⟨_, _, .nothing, rfl⟩

theorem evolves (h : Turn settings now b task b' task') : b.contents.Evolves b'.contents := by
  obtain ⟨entry, b₁, hstep, hcontents⟩ := h.contents
  rw [hcontents]
  exact hstep.evolves

theorem failing_eq (h : Turn settings now b task b' task') : b'.failing = b.failing := by
  cases h <;> rfl

end Turn

/-- Everything that is due can be accepted. -/
theorem Sent.all_accepted (due : List Transfer) :
    Sent due (due.filter fun t => !t.amount.isZero) [] := by
  induction due with
  | nil => exact .nil
  | cons t due ih =>
    cases h : t.amount.isZero with
    | true => simpa [h] using ih.skipped h
    | false => simpa [h] using ih.accepted h

/-- A write that does to the contents what an entry does. -/
theorem Becomes.books {σ : Type} [Store σ] [StoreView σ] {w : World σ} {c : Contents} {s : σ}
    (h : Becomes w.store c s) (g : Randomness) :
    ({ w with store := s, random := g } : World σ).books = { w.books with contents := c } := by
  unfold World.books
  rw [h.contents_eq, h.failing_eq]

/-- A task that took a step in a world, and what became of both. -/
structure Turned {σ : Type} [Store σ] [StoreView σ] (settings : Settings) (w : World σ)
    (task : Task) (out : Task × World σ) : Prop where
  good : out.2.Good
  turn : Turn settings w.clock w.books task out.2.books out.1

namespace Turned

variable {σ : Type} [Store σ] [LawfulStore σ] {settings : Settings} {w : World σ} {task : Task}

section Lead

variable {α : Type} {x : ServiceM σ α} {next : α → Task} {stop : ServiceError → Task}
  {w' : World σ}

theorem of_ok {a : α} (h : x w = (.ok a, w')) (hgood : w'.Good)
    (hturn : Turn settings w.clock w.books task w'.books (next a)) :
    Turned settings w task (Task.lead x next stop w) := by
  unfold Task.lead
  rw [h]
  exact ⟨hgood, hturn⟩

theorem of_error {e : ServiceError} (h : x w = (.error e, w')) (hgood : w'.Good)
    (hturn : Turn settings w.clock w.books task w'.books (stop e)) :
    Turned settings w task (Task.lead x next stop w) := by
  unfold Task.lead
  rw [h]
  exact ⟨hgood, hturn⟩

end Lead

theorem confirming (hw : w.Good) (o : Owner) (code : String) :
    Turned settings w (.confirming o code) ((Task.confirming o code).step settings w) := by
  rcases Confirmation.check_cases hw o code with
    ⟨r, hr, hright, hfresh, hcheck⟩ | ⟨e, hreason, hcheck⟩
  · have hheld := (LawfulStore.coherent hw.sound).holds hr
    cases (LawfulStore.coherent hw.sound).owner_eq hr
    exact of_ok hcheck hw (.found hheld hright hfresh)
  · exact of_error hcheck hw (.unfound hreason)

theorem staking (hw : w.Good) (o : Owner) (r : Registration) :
    Turned settings w (.staking o r) ((Task.staking o r).step settings w) := by
  rcases ServiceM.pay_cases
      ⟨r.address, settings.initialStake, Confirmation.stakeMemo o⟩ hw.quiet with
    ⟨l, hpay, htransfers, hrefusals⟩ | ⟨e, l, -, hpay, htransfers, hrefusals⟩
  · refine of_ok hpay ⟨hw.sound, hw.quiet⟩ ?_
    unfold World.books
    rw [htransfers, hrefusals]
    exact .staked
  · refine of_error hpay ⟨hw.sound, hw.quiet⟩ ?_
    unfold World.books
    rw [htransfers, hrefusals]
    exact .unstaked

theorem recording (hw : w.Good) (o : Owner) (r : Registration) :
    Turned settings w (.recording o r) ((Task.recording o r).step settings w) := by
  rcases Confirmation.record_cases hw o with
    ⟨q, s, hq, hfresh, hbecomes, hrecord⟩ | ⟨e, hreason, hrecord⟩
  · have hheld := (LawfulStore.coherent hw.sound).holds hq
    cases (LawfulStore.coherent hw.sound).owner_eq hq
    refine of_ok hrecord ⟨hbecomes.sound, hw.quiet⟩ ?_
    rw [hbecomes.books]
    exact .recorded (.confirmed hheld hfresh)
  · refine of_error hrecord hw (.unrecorded fun hsafe q hq => ?_)
    -- an open registration would have been confirmed
    rw [← Bool.not_eq_false, Registration.isConfirmed, Option.isSome_eq_false_iff,
      Option.isNone_iff_eq_none]
    intro hfresh
    have hbroken := hreason q hq hfresh
    rw [show failing w.store = [] from hsafe] at hbroken
    cases hbroken

theorem installing (hw : w.Good) (o : Owner) :
    Turned settings w (.installing o) ((Task.installing o).step settings w) := by
  rcases Installation.record_cases hw o with
    ⟨f, s, hf, rfl, hstart, hbecomes, hrecord⟩ | ⟨e, hreason, hrecord⟩
  · refine of_ok hrecord ⟨hbecomes.sound, hw.quiet⟩ ?_
    rw [hbecomes.books]
    exact .moved (.installed hf hstart (.inl rfl))
  · exact of_error hrecord hw (.unmoved hreason)

theorem noticing (hw : w.Good) (o : Owner) :
    Turned settings w (.noticing o) ((Task.noticing o).step settings w) := by
  obtain ⟨waiting, hnotice, hwaiting⟩ := Installation.notice_cases hw o
  have hturn : ∀ answer, Turn settings w.clock w.books (.noticing o)
      { w.books with pending := w.pending ++ waiting } (.installed o answer) := by
    refine fun answer => .noticed (hwaiting.imp_right fun ⟨hnil, hnone⟩ => ⟨hnil, fun hsafe => ?_⟩)
    refine hnone.resolve_left ?_
    rw [show failing w.store = [] from hsafe]
    exact List.not_mem_nil
  have hgood : World.Good { w with pending := w.pending ++ waiting } := ⟨hw.sound, hw.quiet⟩
  rcases hresult : Installation.notice o w with ⟨e | _, w'⟩ <;> rw [hresult] at hnotice <;>
    cases hnotice
  · exact of_error hresult hgood (hturn _)
  · exact of_ok hresult hgood (hturn _)

theorem advancing (hw : w.Good) (o : Owner) :
    Turned settings w (.advancing o) ((Task.advancing o).step settings w) := by
  rcases Payout.transaction_cases settings hw o with
    ⟨p, s, g, ⟨rfl, c, hbecomes, hentry⟩, htransaction⟩ |
      ⟨answer, g, hanswer, hreason, htransaction⟩
  · refine of_ok ((Computation.bind_of_ok (ServiceM.now_apply w)).trans htransaction)
      ⟨hbecomes.sound, hw.quiet⟩ ?_
    rw [hbecomes.books]
    exact .fixed (hentry w.books _ _ rfl (.all_accepted p.transfers))
  · have hnow : (ServiceM.now >>= fun now => ServiceM.transaction (Payout.plan settings o now)) w =
        (answer, { w with random := g }) :=
      (Computation.bind_of_ok (ServiceM.now_apply w)).trans htransaction
    have hgood : World.Good { w with random := g } := ⟨hw.sound, hw.quiet⟩
    rcases hanswer with rfl | ⟨e, rfl⟩
    · exact of_ok hnow hgood (.unfixed hreason)
    · exact of_error hnow hgood (.unfixed hreason)

theorem paying (hw : w.Good) (p : Payout) (t : Transfer) (due : List Transfer)
    (failure : Option ChainError) :
    Turned settings w (.paying p (t :: due) failure)
      ((Task.paying p (t :: due) failure).step settings w) := by
  obtain ⟨e, l, accepted, refused, hpay, htransfers, hrefusals, hsent⟩ :=
    Payout.tryPay_cases t hw.quiet
  refine of_ok hpay ⟨hw.sound, hw.quiet⟩ ?_
  have hone := hsent .nil
  rw [List.append_nil, List.append_nil] at hone
  unfold World.books
  rw [htransfers, hrefusals]
  exact .tried hone

theorem ended (hw : w.Good) (h : task.hasEnded = true) :
    Turned settings w task (task.step settings w) := by
  rw [Task.step_of_hasEnded h]
  exact ⟨hw, .ended h⟩

end Turned

/-- **A step of a task is one of the steps there are**, and keeps the world good. -/
theorem Task.turned {σ : Type} [Store σ] [LawfulStore σ] {w : World σ} (settings : Settings)
    (hw : w.Good) (task : Task) : Turned settings w task (task.step settings w) := by
  cases task with
  | confirming o code => exact .confirming hw o code
  | staking o r => exact .staking hw o r
  | recording o r => exact .recording hw o r
  | greeting o r => exact ⟨⟨hw.sound, hw.quiet⟩, .greeted⟩
  | installing o => exact .installing hw o
  | noticing o => exact .noticing hw o
  | advancing o => exact .advancing hw o
  | paying p due failure =>
    cases due with
    | nil => exact .ended hw rfl
    | cons t due => exact .paying hw p t due failure
  | confirmed _ _ | installed _ _ | idle _ _ => exact .ended hw rfl

end Onboarding
