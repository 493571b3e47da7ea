import Onboarding.Proofs.Service.Run
import Onboarding.Proofs.Service.Task
/-!
# Crowds — any number of calls under way at once

A `Crowd` is a world and the tasks that work on it. Its moves come in any order: a call
comes in, a task takes one step, an advance that was left for later gets under way, or the
surroundings change. `Stir` says what a move does to the books and to the tasks
(`Crowd.move_stir`), and `Crowd.stirs_run` takes what every move keeps through a whole run.
Nothing is assumed about which task goes next.
-/

namespace Onboarding

open StoreView

/-- The world and the calls under way. -/
structure Crowd (σ : Type) where
  world : World σ
  tasks : List Task

/-- One move of a crowd. -/
inductive Move where
  /-- A call comes in. -/
  | call (c : Call)
  /-- The task at this place takes its next step. -/
  | step (place : Nat)
  /-- The advance at this place among those that wait gets under way. -/
  | wake (place : Nat)
  | surround (e : Surroundings)

/-- The store does not fail by this move. -/
def Move.Safe : Move → Prop
  | surround e => e.failing = []
  | _ => True

/-- The task that a call begins, if others may come between its steps. The other calls
write in one transaction, and are taken as one step. -/
def Call.begin? : Call → Option Task
  | confirm owner code => some (.confirming owner code)
  | markInstalled receiver => some (.installing receiver)
  | advanceReferral receiver => some (.advancing receiver)
  | _ => none

/-- A call is at its first step. -/
def Task.Fresh : Task → Prop
  | confirming _ _ | installing _ | advancing _ => True
  | _ => False

/-- An entry of a call that is taken as one step. -/
def Entry.Whole : Entry → Prop
  | confirmed _ | stakeRefused _ | stakeLost _ | installed _ | paid _ => False
  | _ => True

namespace Crowd

variable {σ : Type} [Store σ]

/-- The crowd before the first move. -/
def start (clock : Timestamp) : Crowd σ := ⟨.start clock, []⟩

/-- The crowd after a move. -/
def move [StoreView σ] (settings : Settings) (c : Crowd σ) : Move → Crowd σ
  | .call call =>
    match call.begin? with
    | some task => { c with tasks := c.tasks ++ [task] }
    | none => { c with world := call.after settings c.world }
  | .step place =>
    match c.tasks[place]? with
    | some task =>
      ⟨(task.step settings c.world).2, c.tasks.set place (task.step settings c.world).1⟩
    | none => c
  | .wake place =>
    match c.world.pending[place]? with
    | some receiver =>
      ⟨{ c.world with pending := c.world.pending.eraseIdx place },
        c.tasks ++ [.advancing receiver]⟩
    | none => c
  | .surround e => { c with world := c.world.surround e }

/-- The crowd after all these moves. -/
def run [StoreView σ] (settings : Settings) (moves : List Move) (c : Crowd σ) : Crowd σ :=
  moves.foldl (move settings) c

theorem run_concat [StoreView σ] (settings : Settings) (moves : List Move) (m : Move)
    (c : Crowd σ) : c.run settings (moves ++ [m]) = (c.run settings moves).move settings m :=
  List.foldl_concat _ _ _ _

theorem run_append [StoreView σ] (settings : Settings) (moves moves' : List Move)
    (c : Crowd σ) : c.run settings (moves ++ moves') = (c.run settings moves).run settings moves' :=
  List.foldl_append

end Crowd

/-! ## One move -/

/-- **What a move does** to the books and to the tasks. -/
inductive Stir (settings : Settings) (now : Timestamp) (b : Books) :
    List Task → Move → Books → List Task → Prop
  | rested {ts : List Task} {m : Move} : Stir settings now b ts m b ts
  | entered {ts : List Task} {c : Call} {entry : Entry} {b' : Books}
      (step : Step settings now b entry b') (whole : entry.Whole) :
    Stir settings now b ts (.call c) b' ts
  | began {ts : List Task} {c : Call} {task : Task} (fresh : task.Fresh) :
    Stir settings now b ts (.call c) b (ts ++ [task])
  /-- The tasks before and behind stay where they are. -/
  | turned {before behind : List Task} {task task' : Task} {b' : Books}
      (turn : Turn settings now b task b' task') :
    Stir settings now b (before ++ task :: behind) (.step before.length) b'
      (before ++ task' :: behind)
  | woken {ts : List Task} {place : Nat} {receiver : Owner}
      (waiting : b.pending[place]? = some receiver) :
    Stir settings now b ts (.wake place) { b with pending := b.pending.eraseIdx place }
      (ts ++ [.advancing receiver])
  | surrounded {ts : List Task} {e : Surroundings} {failing : List StoreOp}
      (asked : failing ⊆ e.failing) :
    Stir settings now b ts (.surround e) { b with failing } ts

namespace Stir

variable {settings : Settings} {now : Timestamp} {b b' : Books} {ts ts' : List Task} {m : Move}

/-- **A move does to the contents what an entry does.** -/
theorem contents (h : Stir settings now b ts m b' ts') :
    ∃ entry b₁, Step settings now b entry b₁ ∧ b'.contents = b₁.contents := by
  cases h with
  | entered step _ => exact ⟨_, _, step, rfl⟩
  | turned turn => exact turn.contents
  | rested | began _ | woken _ | surrounded _ => exact ⟨_, _, .nothing, rfl⟩

/-- No move takes a record away, or changes one that is confirmed. -/
theorem evolves (h : Stir settings now b ts m b' ts') : b.contents.Evolves b'.contents := by
  obtain ⟨entry, b₁, hstep, hcontents⟩ := h.contents
  rw [hcontents]
  exact hstep.evolves

/-- **A task stays where it is**, and as it is unless it takes a step. -/
theorem task (h : Stir settings now b ts m b' ts') {place : Nat} {task : Task}
    (htask : ts[place]? = some task) :
    ∃ task', ts'[place]? = some task' ∧ (task' = task ∨ Turn settings now b task b' task') := by
  cases h with
  | rested | entered _ _ | surrounded _ => exact ⟨task, htask, .inl rfl⟩
  | began _ | woken _ =>
    obtain ⟨hlt, -⟩ := List.getElem?_eq_some_iff.1 htask
    exact ⟨task, (List.getElem?_append_left hlt).trans htask, .inl rfl⟩
  | @turned before behind stepped stepped' _ turn =>
    have hset : before ++ stepped' :: behind =
        (before ++ stepped :: behind).set before.length stepped' := by simp
    rw [hset]
    by_cases hplace : before.length = place
    · subst hplace
      have hsame : stepped = task := by simpa using htask
      subst hsame
      exact ⟨stepped', by simp, .inr turn⟩
    · exact ⟨task, (List.getElem?_set_ne hplace).trans htask, .inl rfl⟩

/-- A store that does not fail goes on so through a move by which it does not. -/
theorem failing_eq_nil (h : Stir settings now b ts m b' ts') (hm : m.Safe)
    (hb : b.failing = []) : b'.failing = [] := by
  cases h with
  | entered step _ => exact step.failing_eq.trans hb
  | turned turn => exact turn.failing_eq.trans hb
  | rested | began _ | woken _ => exact hb
  | surrounded asked => exact List.eq_nil_of_subset_nil (hm ▸ asked)

end Stir

section Moves

variable {σ : Type} [Store σ] [LawfulStore σ] {settings : Settings} {c : Crowd σ}

/-- Whichever call is not a task makes a whole entry. -/
theorem Makes.whole {w : World σ} {call : Call} {entry : Entry}
    (h : Makes settings w call entry) (hwhole : call.begin? = none) : entry.Whole := by
  cases h with
  | nothing | enrolled _ | renewed _ | tracked => trivial
  | confirming _ | installed | paid => cases hwhole
  | @granting address _ answer =>
    generalize (grantTestnetStake settings address w).1 = x at answer
    cases answer <;> trivial

/-- A task takes its place among the others. -/
theorem exists_split {ts : List Task} {place : Nat} {task : Task}
    (h : ts[place]? = some task) : ∃ before behind, ts = before ++ task :: behind ∧
      before.length = place ∧ ∀ task', ts.set place task' = before ++ task' :: behind := by
  obtain ⟨hlt, rfl⟩ := List.getElem?_eq_some_iff.1 h
  refine ⟨ts.take place, ts.drop (place + 1), ?_, List.length_take_of_le (Nat.le_of_lt hlt),
    fun task' => ?_⟩
  · rw [List.getElem_cons_drop, List.take_append_drop]
  · exact List.set_eq_take_append_cons_drop ▸ if_pos hlt

/-- **A move is one of those there are**, and keeps the world good. -/
theorem Crowd.move_stir (settings : Settings) (hc : c.world.Good) (m : Move) :
    (c.move settings m).world.Good ∧ Stir settings c.world.clock c.world.books c.tasks m
      (c.move settings m).world.books (c.move settings m).tasks := by
  cases m with
  | call call =>
    cases hbegin : call.begin? with
    | some task =>
      have hmove : c.move settings (.call call) = ⟨c.world, c.tasks ++ [task]⟩ := by
        simp only [move, hbegin]
      rw [hmove]
      refine ⟨hc, .began ?_⟩
      cases call <;> cases hbegin <;> trivial
    | none =>
      have hmove : c.move settings (.call call) = ⟨call.after settings c.world, c.tasks⟩ := by
        simp only [move, hbegin]
      obtain ⟨entry, hmakes, hmade⟩ := call_made hc call
      rw [hmove]
      exact ⟨hmade.good, .entered hmade.step (hmakes.whole hbegin)⟩
  | step place =>
    cases htask : c.tasks[place]? with
    | none =>
      have hmove : c.move settings (.step place) = c := by simp only [move, htask]
      rw [hmove]
      exact ⟨hc, .rested⟩
    | some task =>
      obtain ⟨before, behind, htasks, rfl, hset⟩ := exists_split htask
      have hmove : c.move settings (.step before.length) =
          ⟨(task.step settings c.world).2, before ++ (task.step settings c.world).1 :: behind⟩ := by
        simp only [move, htask, hset]
      have hturned := task.turned settings hc
      rw [hmove, htasks]
      exact ⟨hturned.good, .turned hturned.turn⟩
  | wake place =>
    cases hwaiting : c.world.pending[place]? with
    | none =>
      have hmove : c.move settings (.wake place) = c := by simp only [move, hwaiting]
      rw [hmove]
      exact ⟨hc, .rested⟩
    | some receiver =>
      have hmove : c.move settings (.wake place) =
          ⟨{ c.world with pending := c.world.pending.eraseIdx place },
            c.tasks ++ [.advancing receiver]⟩ := by
        simp only [move, hwaiting]
      rw [hmove]
      exact ⟨⟨hc.sound, hc.quiet⟩, .woken hwaiting⟩
  | surround e =>
    refine ⟨⟨LawfulStore.sound_failOn _ hc.sound, hc.quiet⟩, ?_⟩
    have hcontents := LawfulStore.contents_failOn e.failing c.world.store
    show Stir settings _ _ _ _ (c.world.surround e).books c.tasks
    unfold World.books World.surround
    rw [hcontents]
    exact .surrounded fun op => LawfulStore.failing_failOn _ _

namespace Crowd

theorem good_start (clock : Timestamp) : (start clock : Crowd σ).world.Good :=
  World.good_start clock

theorem good_run (settings : Settings) (hc : c.world.Good) (moves : List Move) :
    (c.run settings moves).world.Good := by
  induction moves using List.reverseRecOn with
  | nil => exact hc
  | append_singleton moves m ih =>
    rw [run_concat]
    exact (move_stir settings ih m).1

/-- **What every move keeps, a run keeps.** -/
theorem stirs_run {P : Books → List Task → Prop} (hc : c.world.Good)
    (hstart : P c.world.books c.tasks) {moves : List Move}
    (hstir : ∀ now b ts m b' ts', b.contents.Coherent → m ∈ moves → P b ts →
      Stir settings now b ts m b' ts' → P b' ts') :
    P (c.run settings moves).world.books (c.run settings moves).tasks := by
  induction moves using List.reverseRecOn with
  | nil => exact hstart
  | append_singleton moves m ih =>
    rw [run_concat]
    have hgood := good_run settings hc moves
    refine hstir _ _ _ m _ _ (LawfulStore.coherent hgood.sound) (by simp) ?_
      (move_stir settings hgood m).2
    exact ih fun now b ts m' b' ts' hb hm' =>
      hstir now b ts m' b' ts' hb (List.mem_append_left _ hm')

end Crowd

end Moves

end Onboarding
