import Onboarding.Proofs.Service.Constancy
import Onboarding.Proofs.Service.Crowd
import Onboarding.Proofs.Service.Rewards
/-!
# Races — confirmations of one owner that run at the same time

A confirmation reads the registration first and stores its own change last, so several of
them may carry the same copy and all of them may transfer the stake. Only one can store the
confirmation: the store refuses the second. The proof relates every copy under way to what
is stored (`Task.Faithful`): the stored registration is a later form of the copy, so it has
the same owner, email and address. From that the stakes of an owner are all alike, and who
is told of success and who is greeted is counted against the one confirmation that is
stored.
-/

namespace Onboarding

open StoreView

/-! ## What is counted -/

/-- An owner is registered and confirmed. -/
def Contents.confirms (c : Contents) (o : Owner) : Bool :=
  (c.registration o).any (·.isConfirmed)

/-- A mail that welcomes an owner. -/
def Mail.welcomes (o : Owner) : Mail → Bool
  | welcome email => Owner.ofEmail email = o
  | verification _ _ => false

/-- The number of mails that welcomed an owner. -/
def Books.welcomes (b : Books) (o : Owner) : Nat := b.outbox.countP (·.welcomes o)

/-- A transfer is the stake of the registration that is stored for an owner. -/
def Contents.Owes (c : Contents) (settings : Settings) (o : Owner) (t : Transfer) : Prop :=
  ∃ r, c.registration o = some r ∧ t = settings.stake r

namespace Task

/-- The stored registration is a later form of the copy that a task carries along, and a
payout has no transfers due but its own. -/
def Faithful (c : Contents) : Task → Prop
  | staking o r | recording o r | greeting o r =>
    r.owner = o ∧ o = .ofEmail r.email ∧ ∃ r', c.registration o = some r' ∧ r.Grows r'
  | paying p due _ => ∀ t ∈ due, t ∈ p.transfers
  | _ => True

/-- A confirmation of an owner that was stored, and not yet told or told as a success. -/
def wins (o : Owner) : Task → Bool
  | greeting o' _ | confirmed o' (.ok ()) => o' = o
  | _ => false

/-- A confirmation that still has to greet the owner. -/
def greets (o : Owner) : Task → Bool
  | greeting o' _ => o' = o
  | _ => false

theorem Fresh.faithful {task : Task} (h : task.Fresh) (c : Contents) : task.Faithful c := by
  cases task <;> trivial

theorem Fresh.wins {task : Task} (h : task.Fresh) (o : Owner) : task.wins o = false := by
  cases task <;> first | rfl | exact h.elim

theorem Fresh.greets {task : Task} (h : task.Fresh) (o : Owner) : task.greets o = false := by
  cases task <;> first | rfl | exact h.elim

end Task

namespace Contents.Evolves

variable {c c' : Contents} {o : Owner}

/-- Whoever is confirmed stays so. -/
theorem confirms (h : c.Evolves c') (hconfirms : c.confirms o = true) : c'.confirms o = true := by
  obtain ⟨r, hr, hconfirmed⟩ := (Option.any_eq_true _ _).1 hconfirms
  obtain ⟨r', hr', hgrows⟩ := h.registration hr
  rw [hgrows.kept hconfirmed] at hr'
  rw [Contents.confirms, hr', Option.any_some, hconfirmed]

theorem confirms_le (h : c.Evolves c') : (c.confirms o).toNat ≤ (c'.confirms o).toNat := by
  cases hconfirms : c.confirms o with
  | false => exact Nat.zero_le _
  | true => exact Nat.le_of_eq (congrArg Bool.toNat (h.confirms hconfirms)).symm

theorem owes (h : c.Evolves c') {settings : Settings} {t : Transfer}
    (ht : c.Owes settings o t) : c'.Owes settings o t := by
  obtain ⟨r, hr, rfl⟩ := ht
  obtain ⟨r', hr', hgrows⟩ := h.registration hr
  refine ⟨r', hr', ?_⟩
  rw [Settings.stake, Settings.stake, hgrows.address_eq, hgrows.owner_eq]

theorem faithful (h : c.Evolves c') {task : Task} (ht : task.Faithful c) : task.Faithful c' := by
  cases task with
  | staking _ _ | recording _ _ | greeting _ _ =>
    obtain ⟨howner, hemail, r', hr', hgrows⟩ := ht
    obtain ⟨r'', hr'', hgrows'⟩ := h.registration hr'
    exact ⟨howner, hemail, r'', hr'', hgrows.trans hgrows'⟩
  | paying _ _ _ => exact ht
  | _ => trivial

end Contents.Evolves

/-! ## Whole entries -/

namespace Step

variable {settings : Settings} {now : Timestamp} {b b' : Books} {entry : Entry}

/-- No call that is taken as one step welcomes anybody. -/
theorem welcomes_eq (h : Step settings now b entry b') (hwhole : entry.Whole) (o : Owner) :
    b'.welcomes o = b.welcomes o := by
  cases h with
  | enrolled _ _ _ _ _ _ _ _ | renewed _ _ _ _ _ =>
    rw [Books.welcomes, List.countP_append]
    rfl
  | confirmed _ _ => exact hwhole.elim
  | _ => rfl

/-- No call that is taken as one step transfers a stake. -/
theorem owes (h : Step settings now b entry b') (hwhole : entry.Whole) {o : Owner}
    (hb : ∀ t ∈ b.transfers, t.memo = Confirmation.stakeMemo o → b.contents.Owes settings o t)
    {t : Transfer} (ht : t ∈ b'.transfers) (hmemo : t.memo = Confirmation.stakeMemo o) :
    b'.contents.Owes settings o t := by
  obtain ⟨sent, htransfers, hsent⟩ := h.sends
  rw [htransfers, List.mem_append] at ht
  rcases ht with hold | hnew
  · exact h.evolves.owes (hb t hold hmemo)
  · cases hsent t hnew with
    | stake | lostStake | reward _ => exact hwhole.elim
    | grant | lostGrant =>
      rw [Faucet.grant, Purpose.stakeMemo_eq, Purpose.faucetMemo_eq, Purpose.memo_inj] at hmemo
      cases hmemo.1

end Step

/-! ## Steps of tasks -/

theorem Confirmation.stakeMemo_inj {o o' : Owner} : stakeMemo o = stakeMemo o' ↔ o = o' := by
  rw [Purpose.stakeMemo_eq, Purpose.stakeMemo_eq, Purpose.memo_inj, Owner.text_inj]
  exact and_iff_right rfl

namespace Turn

variable {settings : Settings} {now : Timestamp} {b b' : Books} {task task' : Task} {o : Owner}

theorem named (h : Turn settings now b task b' task')
    (hb : ∀ r, b.contents.Holds r → r.confirmedAt = none → r.owner = .ofEmail r.email) :
    ∀ r, b'.contents.Holds r → r.confirmedAt = none → r.owner = .ofEmail r.email := by
  obtain ⟨entry, b₁, hstep, hcontents⟩ := h.contents
  rw [hcontents]
  exact fun r => hstep.named hb

/-- **A copy is read from the store**, and is handed on as it is. -/
theorem faithful (h : Turn settings now b task b' task')
    (hnamed : ∀ r, b.contents.Holds r → r.confirmedAt = none → r.owner = .ofEmail r.email)
    (htask : task.Faithful b.contents) : task'.Faithful b'.contents := by
  have hkept := h.evolves.faithful htask
  cases h with
  | ended _ => exact htask
  | @found r code held _ fresh => exact ⟨rfl, hnamed r held fresh, r, held, .refl r⟩
  | staked | recorded _ => exact hkept
  | fixed _ => exact fun t ht => ht
  | tried _ => exact fun t ht => htask t (List.mem_cons_of_mem _ ht)
  | unfound _ | unstaked | unrecorded _ | greeted | moved _ | unmoved _ | noticed _ | unfixed _ =>
    trivial

/-- **A stake goes where the stored registration says**, whichever copy it was taken from. -/
theorem owes (h : Turn settings now b task b' task') (htask : task.Faithful b.contents)
    (hb : ∀ t ∈ b.transfers, t.memo = Confirmation.stakeMemo o → b.contents.Owes settings o t)
    {t : Transfer} (ht : t ∈ b'.transfers) (hmemo : t.memo = Confirmation.stakeMemo o) :
    b'.contents.Owes settings o t := by
  have hkept : t ∈ b.transfers → b'.contents.Owes settings o t :=
    fun hold => h.evolves.owes (hb t hold hmemo)
  cases h with
  | @staked o' r =>
    rcases List.mem_append.1 ht with hold | hnew
    · exact hkept hold
    · rw [List.mem_singleton] at hnew
      subst hnew
      obtain ⟨howner, -, r', hr', hgrows⟩ := htask
      cases Confirmation.stakeMemo_inj.1 hmemo
      refine ⟨r', hr', ?_⟩
      rw [Settings.stake, hgrows.address_eq, hgrows.owner_eq, howner]
  | @tried p _ _ accepted _ _ _ sent =>
    rcases List.mem_append.1 ht with hold | hnew
    · exact hkept hold
    · -- a reward has another memo
      have hdue := htask t (List.mem_cons.2 (.inl (List.mem_singleton.1
        (List.mem_filter.1 (sent.sublist.subset hnew)).1)))
      obtain ⟨side, rfl⟩ := Payout.eq_transfer hdue
      rw [Side.memo_transfer] at hmemo
      exact absurd hmemo.symm (side.stakeMemo_ne _ _)
  | _ => exact hkept ht

/-- Only an open registration can be confirmed, and then it is. -/
theorem confirms_of_confirmed {q : Registration} (h : Step settings now b (.confirmed q) b') :
    b.contents.confirms q.owner = false ∧ b'.contents.confirms q.owner = true := by
  obtain ⟨held, fresh, hcontents⟩ := h.of_confirmed
  constructor
  · rw [Contents.confirms, held, Option.any_some, Registration.isConfirmed, fresh]
    rfl
  · rw [hcontents, Contents.confirms]
    exact congrArg (Option.any _) (Contents.registration_put_self _ _)

/-- **A confirmation is won by storing it**, and the store lets that happen once. -/
theorem wins_le (h : Turn settings now b task b' task') (o : Owner) :
    (task'.wins o).toNat + (b.contents.confirms o).toNat ≤
      (task.wins o).toNat + (b'.contents.confirms o).toNat := by
  have hkept := h.evolves.confirms_le (o := o)
  cases h with
  | @recorded q r _ entry =>
    by_cases ho : q.owner = o
    · subst ho
      obtain ⟨hbefore, hafter⟩ := confirms_of_confirmed entry
      simp [Task.wins, hbefore, hafter]
    · simpa [Task.wins, ho] using hkept
  | ended _ | greeted => exact Nat.add_le_add_left hkept _
  | moved _ | fixed _ => simpa [Task.wins] using hkept
  | _ => simp [Task.wins]

/-- **An owner is greeted for a confirmation that was stored.** -/
theorem welcomes_le (h : Turn settings now b task b' task') (htask : task.Faithful b.contents)
    (o : Owner) :
    b'.welcomes o + (task'.greets o).toNat + (b.contents.confirms o).toNat ≤
      b.welcomes o + (task.greets o).toNat + (b'.contents.confirms o).toNat := by
  have hkept := h.evolves.confirms_le (o := o)
  cases h with
  | @recorded q r _ entry =>
    by_cases ho : q.owner = o
    · subst ho
      obtain ⟨hbefore, hafter⟩ := confirms_of_confirmed entry
      simp [Task.greets, Books.welcomes, hbefore, hafter]
    · simpa [Task.greets, Books.welcomes, ho] using hkept
  | @greeted o' r =>
    obtain ⟨-, hemail, -⟩ := htask
    by_cases ho : o' = o
    · simp [Task.greets, Books.welcomes, Mail.welcomes, ← hemail, ho]
    · simp [Task.greets, Books.welcomes, Mail.welcomes, ← hemail, ho]
  | ended _ => exact Nat.add_le_add_left hkept _
  | moved _ | fixed _ => simpa [Task.greets, Books.welcomes] using hkept
  | _ => simp [Task.greets, Books.welcomes]

end Turn

/-! ## Whole runs -/

/-- What every move keeps: copies are of what is stored, stakes go where the registration
says, and who won and who was greeted is told from what is stored. -/
structure Books.Fair (settings : Settings) (b : Books) (ts : List Task) : Prop where
  faithful : ∀ task ∈ ts, task.Faithful b.contents
  named : ∀ r, b.contents.Holds r → r.confirmedAt = none → r.owner = .ofEmail r.email
  owes : ∀ o, ∀ t ∈ b.transfers, t.memo = Confirmation.stakeMemo o → b.contents.Owes settings o t
  won : ∀ o, ts.countP (·.wins o) ≤ (b.contents.confirms o).toNat
  welcomed : ∀ o, b.welcomes o + ts.countP (·.greets o) ≤ (b.contents.confirms o).toNat

/-- The count of a list, by one of its items. -/
theorem countP_split {α : Type} (p : α → Bool) (before behind : List α) (a : α) :
    (before ++ a :: behind).countP p = before.countP p + behind.countP p + (p a).toNat := by
  rw [List.countP_append, List.countP_cons, Nat.add_assoc]
  cases p a <;> rfl

namespace Stir

variable {settings : Settings} {now : Timestamp} {b b' : Books} {ts ts' : List Task} {m : Move}

/-- **Every move is fair.** -/
theorem fair (h : Stir settings now b ts m b' ts') (hb : b.Fair settings ts) :
    b'.Fair settings ts' := by
  obtain ⟨faithful, named, owes, won, welcomed⟩ := hb
  have hevolves := h.evolves
  cases h with
  | rested => exact ⟨faithful, named, owes, won, welcomed⟩
  | entered step whole =>
    refine ⟨fun task htask => hevolves.faithful (faithful task htask),
      fun r => step.named named, fun o t => step.owes whole (owes o), fun o => ?_, fun o => ?_⟩
    · exact Nat.le_trans (won o) hevolves.confirms_le
    · rw [step.welcomes_eq whole]
      exact Nat.le_trans (welcomed o) hevolves.confirms_le
  | @began _ _ task fresh =>
    refine ⟨fun task' htask => ?_, named, owes, fun o => ?_, fun o => ?_⟩
    · rcases List.mem_append.1 htask with hold | hnew
      · exact faithful task' hold
      · rw [List.mem_singleton.1 hnew]
        exact fresh.faithful _
    · simpa [List.countP_append, fresh.wins] using won o
    · simpa [List.countP_append, fresh.greets] using welcomed o
  | @turned before behind task task' _ turn =>
    have htask := faithful task (by simp)
    refine ⟨fun other hother => ?_, turn.named named, fun o t => turn.owes htask (owes o),
      fun o => ?_, fun o => ?_⟩
    · rcases List.mem_append.1 hother with hbefore | hhere
      · exact hevolves.faithful (faithful other (by simp [hbefore]))
      · rcases List.mem_cons.1 hhere with rfl | hbehind
        · exact turn.faithful named htask
        · exact hevolves.faithful (faithful other (by simp [hbehind]))
    · have hbefore := won o
      have hturn := turn.wins_le o
      rw [countP_split] at hbefore ⊢
      omega
    · have hbefore := welcomed o
      have hturn := turn.welcomes_le htask o
      rw [countP_split] at hbefore ⊢
      omega
  | woken _ =>
    refine ⟨fun task' htask => ?_, named, owes, fun o => ?_, fun o => ?_⟩
    · rcases List.mem_append.1 htask with hold | hnew
      · exact faithful task' hold
      · rw [List.mem_singleton.1 hnew]
        trivial
    · simpa [List.countP_append, Task.wins] using won o
    · simpa [List.countP_append, Task.greets, Books.welcomes] using welcomed o
  | surrounded _ => exact ⟨faithful, named, owes, won, welcomed⟩

end Stir

namespace Task

/-- A confirmation of an owner that was told to have succeeded. -/
def succeeded (o : Owner) : Task → Bool
  | confirmed o' (.ok ()) => o' = o
  | _ => false

theorem wins_of_succeeded {o : Owner} {task : Task} (h : task.succeeded o = true) :
    task.wins o = true := by
  unfold succeeded at h
  split at h
  · exact h
  · cases h

end Task

/-- What the confirmations of an owner come to, however they are interleaved. -/
structure Crowd.Decided {σ : Type} [Store σ] [LawfulStore σ] (settings : Settings) (c : Crowd σ)
    (o : Owner) : Prop where
  /-- One confirmation at most succeeds, and only if it is stored. -/
  won : c.tasks.countP (·.succeeded o) ≤ ((contents c.world.store).confirms o).toNat
  /-- One welcome mail at most is sent, and only if a confirmation is stored. -/
  welcomed : c.world.outbox.countP (·.welcomes o) ≤ ((contents c.world.store).confirms o).toNat
  /-- The time of a confirmation is written where there is none, and from the clock. -/
  written : ∀ m r r', (contents c.world.store).registration o = some r →
    (contents (c.move settings m).world.store).registration o = some r' →
    r'.confirmedAt ≠ r.confirmedAt → r.confirmedAt = none ∧ r'.confirmedAt = some c.world.clock
  /-- What is confirmed stays as it is. -/
  kept : ∀ r, (contents c.world.store).registration o = some r → r.isConfirmed = true →
    ∀ moves, (contents (c.run settings moves).world.store).registration o = some r
  /-- The stakes of an owner cannot be told apart. -/
  alike : ∀ t ∈ c.world.ledger.transfers, ∀ t' ∈ c.world.ledger.transfers,
    t.memo = Confirmation.stakeMemo o → t'.memo = Confirmation.stakeMemo o → t' = t

section Runs

variable {σ : Type} [Store σ] [LawfulStore σ] {settings : Settings} {c : Crowd σ}

theorem Books.Fair.decided (h : c.world.books.Fair settings c.tasks) (hc : c.world.Good)
    (o : Owner) : c.Decided settings o where
  won := by
    refine Nat.le_trans (List.countP_mono_left fun task _ => ?_) (h.won o)
    exact Task.wins_of_succeeded
  welcomed := Nat.le_trans (Nat.le_add_right _ _) (h.welcomed o)
  written m r r' hr hr' hne := by
    obtain ⟨entry, b₁, hstep, hcontents⟩ := (Crowd.move_stir settings hc m).2.contents
    obtain ⟨q, hq, hmove⟩ := hstep.move hr
    rw [← hcontents] at hq
    cases Option.some.inj (hq.symm.trans hr')
    cases hmove with
    | stays | renewed _ _ | tracked _ _ => exact absurd rfl hne
    | confirmed fresh => exact ⟨fresh, rfl⟩
  kept r hr hconfirmed moves := by
    refine Crowd.stirs_run (P := fun b _ => b.contents.registration o = some r) hc hr ?_
    intro now b ts m b' ts' _ _ hold hstir
    obtain ⟨r', hr', hgrows⟩ := hstir.evolves.registration hold
    rw [hgrows.kept hconfirmed] at hr'
    exact hr'
  alike t ht t' ht' hmemo hmemo' := by
    obtain ⟨r, hr, rfl⟩ := h.owes o t ht hmemo
    obtain ⟨r', hr', rfl⟩ := h.owes o t' ht' hmemo'
    cases Option.some.inj (hr'.symm.trans hr)
    rfl

theorem Crowd.fair_run (settings : Settings) (clock : Timestamp) (moves : List Move) :
    ((start clock : Crowd σ).run settings moves).world.books.Fair settings
      ((start clock : Crowd σ).run settings moves).tasks := by
  refine stirs_run (good_start clock) ?_ fun _ _ _ _ _ _ _ _ hb hstir => hstir.fair hb
  show (World.start clock : World σ).books.Fair settings []
  rw [World.books_start]
  exact ⟨nofun, nofun, fun _ => nofun, fun _ => Nat.zero_le _, fun _ => Nat.zero_le _⟩

end Runs

/-- **Confirmations of one owner may race**: whatever comes between their steps, one of them
succeeds at most, the owner is greeted once, what is confirmed is not confirmed again, and
the chain sees the same stake each time. -/
theorem decided_run (kind : StoreKind) (settings : Settings) (clock : Timestamp)
    (moves : List Move) (o : Owner) :
    ((Crowd.start clock : Crowd kind.State).run settings moves).Decided settings o :=
  (Crowd.fair_run settings clock moves).decided
    (Crowd.good_run settings (Crowd.good_start clock) moves) o

end Onboarding
