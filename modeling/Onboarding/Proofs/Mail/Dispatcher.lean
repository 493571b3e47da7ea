import Mathlib.Data.List.Basic
import Onboarding.Mail.Dispatcher
/-!
# The dispatcher — which mails reach the transport

A mail is lost where the queue is full when it is sent, and nowhere else. `admitted` reads off
the acts alone which mails find room, by counting how many wait; `Step.passed_eq` says that an
act moves the mails that were taken from waiting to in hand to handed over, and takes one more
exactly when `admitted` does. A delivery that fails is one act like any other: what it leaves
is the same queue (`run_silent`). Once no dispatcher is left every act is one of the worker's,
and each brings it nearer to its end (`Step.left_eq`).
-/

namespace Onboarding

namespace Dispatch

variable {s s' : Dispatch} {a : Act} {acts : List Act}

/-! ## What an act does -/

/-- **The acts there are**: what was so before, and what is so afterwards. -/
inductive Step (s : Dispatch) : Act → Dispatch → Prop
  | cloned {i new : Nat} (known : i ∈ s.dispatchers) (fresh : new ∉ s.dispatchers) :
    Step s (.clone i new) { s with dispatchers := s.dispatchers ++ [new] }
  | dropped {i : Nat} (known : i ∈ s.dispatchers) :
    Step s (.drop i) { s with dispatchers := s.dispatchers.erase i }
  | queued {i : Nat} {mail : Mail} (known : i ∈ s.dispatchers) (going : s.queue.stopped = false)
      (room : s.queue.waiting.length < s.queue.room) :
    Step s (.send i mail) { s with
      queue := { s.queue with waiting := s.queue.waiting ++ [s.templates.message mail] } }
  | refused {i : Nat} {mail : Mail} (known : i ∈ s.dispatchers)
      (full : s.queue.stopped = false → s.queue.room ≤ s.queue.waiting.length) :
    Step s (.send i mail) { s with
      logs := s.logs ++ [dropEvent s.queue (s.templates.message mail)] }
  | received {m : MailMessage} {rest : List MailMessage} (going : s.queue.stopped = false)
      (idle : s.queue.inHand = none) (oldest : s.queue.waiting = m :: rest) :
    Step s .receive { s with queue := { s.queue with waiting := rest, inHand := some m } }
  | delivered {m : MailMessage} {outcome : Except MailError Unit}
      (going : s.queue.stopped = false) (inHand : s.queue.inHand = some m) :
    Step s (.deliver outcome) { s with
      queue := { s.queue with inHand := none, handed := s.queue.handed ++ [m] }
      logs := s.logs ++ [deliveryEvent m outcome] }
  | finished (going : s.queue.stopped = false) (idle : s.queue.inHand = none)
      (nothing : s.queue.waiting = []) (nobody : s.dispatchers = []) :
    Step s .finish { s with
      queue := { s.queue with stopped := true }
      logs := s.logs ++ [event .debug "mail worker stopped"] }

theorem isIdle_iff : s.isIdle = true ↔ s.queue.stopped = false ∧ s.queue.inHand = none := by
  simp [isIdle]

theorem accepts_iff_room {q : MailQueue} :
    q.accepts = true ↔ q.stopped = false ∧ q.waiting.length < q.room := by
  simp [MailQueue.accepts]

theorem step_of_act (h : s.act a = some s') : Step s a s' := by
  cases a with
  | clone i new =>
    simp only [act, Option.ite_none_right_eq_some, Option.some.injEq] at h
    obtain ⟨⟨hknown, hfresh⟩, rfl⟩ := h
    exact .cloned hknown hfresh
  | drop i =>
    simp only [act, Option.ite_none_right_eq_some, Option.some.injEq] at h
    obtain ⟨hknown, rfl⟩ := h
    exact .dropped hknown
  | send i mail =>
    simp only [act, Option.ite_none_right_eq_some, Option.some.injEq] at h
    obtain ⟨hknown, rfl⟩ := h
    unfold enqueue
    split
    · rename_i htaken
      obtain ⟨hgoing, hroom⟩ := accepts_iff_room.1 htaken
      rw [MailQueue.send, if_pos htaken]
      exact .queued hknown hgoing hroom
    · rename_i hrefused
      refine .refused hknown fun hgoing => ?_
      by_contra hroom
      exact hrefused (accepts_iff_room.2 ⟨hgoing, by omega⟩)
  | receive =>
    simp only [act, Option.ite_none_right_eq_some, Option.some.injEq] at h
    obtain ⟨⟨hidle, hwaits⟩, rfl⟩ := h
    obtain ⟨hgoing, hidle⟩ := isIdle_iff.1 hidle
    obtain ⟨m, rest, holdest⟩ := List.exists_cons_of_ne_nil hwaits
    have htake : s.queue.take = { s.queue with waiting := rest, inHand := some m } := by
      simp [MailQueue.take, hgoing, hidle, holdest]
    rw [htake]
    exact .received hgoing hidle holdest
  | deliver outcome =>
    simp only [act] at h
    split at h
    · rename_i m hgoing hhand
      cases h
      have hdeliver : s.queue.deliver =
          { s.queue with inHand := none, handed := s.queue.handed ++ [m] } := by
        simp [MailQueue.deliver, hgoing, hhand]
      rw [hdeliver]
      exact .delivered hgoing hhand
    · cases h
  | finish =>
    simp only [act, Option.ite_none_right_eq_some, Option.some.injEq] at h
    obtain ⟨⟨hidle, hnothing, hnobody⟩, rfl⟩ := h
    obtain ⟨hgoing, hidle⟩ := isIdle_iff.1 hidle
    have hstop : s.queue.stop = { s.queue with stopped := true } := by
      simp [MailQueue.stop, hnothing, hidle]
    rw [hstop]
    exact .finished hgoing hidle hnothing hnobody

/-! ## Mails in their order -/

/-- What can be said of every state that a run leads to: no more mails wait than there is room
for, and a worker that has stopped left nothing and nobody behind. -/
structure Orderly (s : Dispatch) : Prop where
  within : s.queue.waiting.length ≤ s.queue.room
  left_none : s.queue.stopped = true →
    s.queue.waiting = [] ∧ s.queue.inHand = none ∧ s.dispatchers = []

theorem orderly_spawn (t : MailTemplates) (capacity : Nat) : Orderly (spawn t capacity) :=
  ⟨Nat.zero_le _, nofun⟩

theorem Orderly.of_going (hwithin : s.queue.waiting.length ≤ s.queue.room)
    (hgoing : s.queue.stopped = false) : Orderly s := by
  refine ⟨hwithin, fun hstopped => ?_⟩
  rw [hgoing] at hstopped
  cases hstopped

/-- Whoever still has a dispatcher has a worker that goes on. -/
theorem Orderly.going (h : Orderly s) {i : Nat} (hi : i ∈ s.dispatchers) :
    s.queue.stopped = false := by
  cases hstopped : s.queue.stopped with
  | false => rfl
  | true =>
    have hnobody := (h.left_none hstopped).2.2
    rw [hnobody] at hi
    cases hi

/-- The mails that were taken: those handed over, the one in hand, and those that wait. -/
def passed (s : Dispatch) : List MailMessage :=
  s.queue.handed ++ s.queue.inHand.toList ++ s.queue.waiting

/-- How many mails wait after an act, where `n` waited before and there is room for `room`. -/
def waitsAfter (room n : Nat) : Act → Nat
  | .send _ _ => if n < room then n + 1 else n
  | .receive => n - 1
  | _ => n

/-- The message that an act adds to those that are taken: one that is sent while fewer wait
than there is room for. -/
def taken (t : MailTemplates) (room n : Nat) : Act → List MailMessage
  | .send _ mail => if n < room then [t.message mail] else []
  | _ => []

/-- The messages that find room among those of a list of acts, where `n` wait before it. -/
def admitted (t : MailTemplates) (room : Nat) : Nat → List Act → List MailMessage
  | _, [] => []
  | n, a :: acts => taken t room n a ++ admitted t room (waitsAfter room n a) acts

namespace Step

theorem templates_eq (h : Step s a s') : s'.templates = s.templates := by
  cases h <;> rfl

theorem room_eq (h : Step s a s') : s'.queue.room = s.queue.room := by
  cases h <;> rfl

theorem orderly (hs : Orderly s) (h : Step s a s') : Orderly s' := by
  have hwithin := hs.within
  cases h with
  | cloned known _ | dropped known => exact .of_going hwithin (hs.going known)
  | queued _ going room =>
    refine .of_going ?_ going
    show (s.queue.waiting ++ [_]).length ≤ s.queue.room
    rw [List.length_append, List.length_singleton]
    omega
  | refused _ _ => exact ⟨hwithin, hs.left_none⟩
  | received going _ oldest =>
    refine .of_going ?_ going
    rw [oldest, List.length_cons] at hwithin
    exact Nat.le_of_succ_le hwithin
  | delivered going _ => exact .of_going hwithin going
  | finished _ idle nothing nobody => exact ⟨hwithin, fun _ => ⟨nothing, idle, nobody⟩⟩

/-- Counting the acts counts those that wait. -/
theorem length_eq (hs : Orderly s) (h : Step s a s') :
    s'.queue.waiting.length = waitsAfter s.queue.room s.queue.waiting.length a := by
  cases h with
  | cloned _ _ | dropped _ | delivered _ _ | finished _ _ _ _ => rfl
  | queued _ _ room =>
    rw [waitsAfter, if_pos room]
    exact List.length_append
  | refused known full =>
    have hfull := full (hs.going known)
    rw [waitsAfter, if_neg (by omega)]
  | received _ _ oldest =>
    rw [waitsAfter, oldest]
    rfl

/-- **An act loses no mail that was taken**, and takes one if there is room for it. -/
theorem passed_eq (hs : Orderly s) (h : Step s a s') :
    s'.passed = s.passed ++ taken s.templates s.queue.room s.queue.waiting.length a := by
  cases h with
  | cloned _ _ | dropped _ | finished _ _ _ _ => exact (List.append_nil _).symm
  | queued _ _ room =>
    rw [taken, if_pos room]
    exact (List.append_assoc _ _ _).symm
  | refused known full =>
    have hfull := full (hs.going known)
    rw [taken, if_neg (by omega), List.append_nil]
    rfl
  | received _ idle oldest => simp [passed, taken, idle, oldest]
  | delivered _ inHand => simp [passed, taken, inHand]

end Step

/-! ## Runs -/

theorem run_cons : s.run (a :: acts) = some s' ↔ ∃ u, s.act a = some u ∧ u.run acts = some s' := by
  simp [run, Option.bind_eq_some_iff]

/-- **A run takes the mails that are admitted**, in their order and each of them once. -/
theorem passed_of_run (hs : Orderly s) (h : s.run acts = some s') :
    s'.passed = s.passed ++ admitted s.templates s.queue.room s.queue.waiting.length acts ∧
      Orderly s' := by
  induction acts generalizing s with
  | nil =>
    obtain rfl : s = s' := by simpa [run] using h
    exact ⟨(List.append_nil _).symm, hs⟩
  | cons a acts ih =>
    obtain ⟨u, ha, hrest⟩ := run_cons.1 h
    have hstep := step_of_act ha
    obtain ⟨hpassed, horderly⟩ := ih (hstep.orderly hs) hrest
    refine ⟨?_, horderly⟩
    rw [hpassed, hstep.passed_eq hs, hstep.templates_eq, hstep.room_eq, hstep.length_eq hs,
      List.append_assoc, admitted]

/-! ## Deliveries that fail -/

/-- The act with a delivery that succeeds in place of one that may not. -/
def Act.forgive : Act → Act
  | .deliver _ => .deliver (.ok ())
  | a => a

/-- What is left when nobody looks at the log. -/
def silent (s : Dispatch) : Dispatch := { s with logs := [] }

/-- An act that fails to deliver leaves what one that delivers would, but for the log. -/
theorem act_silent (s : Dispatch) (a : Act) :
    (s.act a).map silent = (s.silent.act a.forgive).map silent := by
  cases a with
  | clone i new | drop i | receive | finish =>
    simp only [act, Act.forgive, apply_ite (Option.map silent), Option.map_some, Option.map_none]
    rfl
  | send i mail =>
    have henqueue (m : MailMessage) : (s.enqueue m).silent = (s.silent.enqueue m).silent := by
      unfold enqueue
      rw [apply_ite silent, apply_ite silent]
      rfl
    simp only [act, Act.forgive, apply_ite (Option.map silent), Option.map_some, Option.map_none,
      henqueue]
    rfl
  | deliver outcome =>
    have hqueue : s.silent.queue = s.queue := rfl
    simp only [act, Act.forgive, hqueue]
    cases s.queue.stopped with
    | true => rfl
    | false => cases s.queue.inHand <;> rfl

/-- **What a run leaves does not depend on which deliveries failed.** -/
theorem run_silent {u : Dispatch} {acts' : List Act} (hs : s.silent = u.silent)
    (hacts : acts.map Act.forgive = acts'.map Act.forgive) :
    (s.run acts).map silent = (u.run acts').map silent := by
  induction acts generalizing s u acts' with
  | nil =>
    obtain rfl := List.map_eq_nil_iff.1 hacts.symm
    exact congrArg some hs
  | cons a acts ih =>
    obtain ⟨a', rest, rfl, ha, hrest⟩ := List.map_eq_cons_iff.1 hacts.symm
    have hact : (s.act a).map silent = (u.act a').map silent := by
      rw [act_silent s a, act_silent u a', hs, ha]
    show ((s.act a).bind (·.run acts)).map silent = ((u.act a').bind (·.run rest)).map silent
    cases hsa : s.act a with
    | none =>
      rw [hsa] at hact
      rw [Option.map_eq_none_iff.1 hact.symm]
      rfl
    | some v =>
      rw [hsa] at hact
      obtain ⟨v', hv', hsilent⟩ := Option.map_eq_some_iff.1 hact.symm
      rw [hv']
      exact ih hsilent.symm hrest.symm

/-! ## The end of the worker -/

/-- How many steps the worker has before it: two for a mail that waits, one for the mail in
hand, and one to stop. -/
def stepsLeft (s : Dispatch) : Nat :=
  2 * s.queue.waiting.length + s.queue.inHand.toList.length + if s.queue.stopped then 0 else 1

/-- A worker has no steps before it if and only if it has stopped. -/
theorem Orderly.stepsLeft_eq_zero (hs : Orderly s) : s.stepsLeft = 0 ↔ s.queue.stopped = true := by
  unfold stepsLeft
  cases hstopped : s.queue.stopped with
  | false => simp
  | true =>
    obtain ⟨hwaiting, hhand, -⟩ := hs.left_none hstopped
    simp [hwaiting, hhand]

/-- Once no dispatcher is left, **an act is a step of the worker**, which takes no mail. -/
theorem Step.stepsLeft_eq (hnobody : s.dispatchers = []) (h : Step s a s') :
    s'.dispatchers = [] ∧ s'.stepsLeft + 1 = s.stepsLeft ∧
      taken s.templates s.queue.room s.queue.waiting.length a = [] := by
  cases h with
  | cloned known _ | dropped known | queued known _ _ | refused known _ =>
    rw [hnobody] at known
    cases known
  | received going idle oldest =>
    refine ⟨hnobody, ?_, rfl⟩
    simp [stepsLeft, going, idle, oldest]
    omega
  | delivered going inHand =>
    refine ⟨hnobody, ?_, rfl⟩
    simp [stepsLeft, going, inHand]
  | finished going idle nothing _ =>
    refine ⟨hnobody, ?_, rfl⟩
    simp [stepsLeft, going, idle, nothing]

/-- A worker that has not stopped can take a step once no dispatcher is left. -/
theorem exists_act (hnobody : s.dispatchers = []) (hgoing : s.queue.stopped = false) :
    ∃ a u, s.act a = some u := by
  cases hhand : s.queue.inHand with
  | some m => exact ⟨.deliver (.ok ()), _, by simp only [act, hgoing, hhand]; rfl⟩
  | none =>
    have hidle : s.isIdle = true := isIdle_iff.2 ⟨hgoing, hhand⟩
    by_cases hnothing : s.queue.waiting = []
    · exact ⟨.finish, _, if_pos ⟨hidle, hnothing, hnobody⟩⟩
    · exact ⟨.receive, _, if_pos ⟨hidle, hnothing⟩⟩

/-- **The worker hands over what still waits, and stops**: every act brings it one step nearer
to its end, and none loses a mail. -/
theorem stepsLeft_of_run (hs : Orderly s) (hnobody : s.dispatchers = [])
    (h : s.run acts = some s') :
    s'.dispatchers = [] ∧ s'.stepsLeft + acts.length = s.stepsLeft ∧ s'.passed = s.passed := by
  induction acts generalizing s with
  | nil =>
    obtain rfl : s = s' := by simpa [run] using h
    exact ⟨hnobody, rfl, rfl⟩
  | cons a acts ih =>
    obtain ⟨u, ha, hrest⟩ := run_cons.1 h
    have hstep := step_of_act ha
    obtain ⟨hnobody', hsteps, htaken⟩ := hstep.stepsLeft_eq hnobody
    obtain ⟨hnobody'', hsteps', hpassed⟩ := ih (hstep.orderly hs) hnobody' hrest
    refine ⟨hnobody'', ?_, ?_⟩
    · rw [List.length_cons]
      omega
    · rw [hpassed, hstep.passed_eq hs, htaken, List.append_nil]

/-! ## Every order of the acts -/

/-- What holds of every run: the mails that it loses are those that found the queue full. -/
structure Delivers (templates : MailTemplates) (capacity : Nat) (acts : List Act)
    (s : Dispatch) : Prop where
  /-- The mails that were handed over, the one in hand, and those that wait are the admitted
  ones, in order and each once. -/
  passed_eq : s.queue.handed ++ s.queue.inHand.toList ++ s.queue.waiting =
    admitted templates (max capacity 1) 0 acts
  /-- A worker that has stopped was left by everyone, and handed over everything. -/
  handed_eq : s.queue.stopped = true →
    s.dispatchers = [] ∧ s.queue.handed = admitted templates (max capacity 1) 0 acts
  /-- A worker that is left by everyone does stop: whatever happens is one of its steps, it can
  take one until it has stopped, and it has taken all of them when it stops. -/
  finishes : s.dispatchers = [] → ∀ more s', s.run more = some s' →
    s'.stepsLeft + more.length = s.stepsLeft ∧
    (s'.stepsLeft = 0 ↔ s'.queue.stopped = true) ∧
    (s'.queue.stopped = false → ∃ a u, s'.act a = some u) ∧
    (s'.queue.stopped = true →
      s'.queue.handed = s.queue.handed ++ s.queue.inHand.toList ++ s.queue.waiting)
  /-- Other deliveries might have failed. -/
  outcomes : ∀ acts', acts'.map Act.forgive = acts.map Act.forgive →
    ∃ s', (spawn templates capacity).run acts' = some s' ∧ s'.queue = s.queue ∧
      s'.dispatchers = s.dispatchers

theorem Orderly.passed_of_stopped (hs : Orderly s) (hstopped : s.queue.stopped = true) :
    s.passed = s.queue.handed := by
  obtain ⟨hwaiting, hhand, -⟩ := hs.left_none hstopped
  simp [passed, hwaiting, hhand]

/-- **The transport is handed the mails that were sent while there was room for them**, in
their order and each once, whichever deliveries fail; and when every dispatcher was dropped,
the worker hands over what still waits before it stops. -/
theorem delivers_of_run (templates : MailTemplates) (capacity : Nat) (acts : List Act)
    (s : Dispatch) (h : (spawn templates capacity).run acts = some s) :
    Delivers templates capacity acts s := by
  obtain ⟨hpassed, horderly⟩ := passed_of_run (orderly_spawn templates capacity) h
  have hadmitted : s.passed = admitted templates (max capacity 1) 0 acts := hpassed
  refine ⟨hadmitted, fun hstopped => ?_, fun hnobody more s' hmore => ?_, fun acts' hacts => ?_⟩
  · refine ⟨(horderly.left_none hstopped).2.2, ?_⟩
    rw [← horderly.passed_of_stopped hstopped, hadmitted]
  · obtain ⟨hnobody', hsteps, hkept⟩ := stepsLeft_of_run horderly hnobody hmore
    have horderly' := (passed_of_run horderly hmore).2
    refine ⟨hsteps, horderly'.stepsLeft_eq_zero, exists_act hnobody', fun hstopped => ?_⟩
    rw [← horderly'.passed_of_stopped hstopped, hkept]
    rfl
  · have hsilent := run_silent (s := spawn templates capacity) rfl hacts.symm
    rw [h] at hsilent
    obtain ⟨s', hs', heq⟩ := Option.map_eq_some_iff.1 hsilent.symm
    have hqueue := congrArg queue heq
    have hdispatchers := congrArg dispatchers heq
    exact ⟨s', hs', hqueue, hdispatchers⟩

/-- Two dispatchers, a queue that was full for the second mail, a delivery that fails, and a
mail that still waits when both are dropped. -/
theorem delivers_of_run_full :
    ∃ s, (spawn { } 0).run [.clone 0 1, .send 0 (.welcome "a@x.com"), .send 1 (.welcome "b@x.com"),
        .receive, .send 1 (.verification "c@x.com" "abcd"), .drop 0, .drop 1,
        .deliver (.error (.rejected "nope")), .receive, .deliver (.ok ()), .finish] = some s ∧
      s.queue.stopped = true ∧ s.queue.handed.map (·.recipient) = ["a@x.com", "c@x.com"] ∧
      Delivers { } 0 [.clone 0 1, .send 0 (.welcome "a@x.com"), .send 1 (.welcome "b@x.com"),
        .receive, .send 1 (.verification "c@x.com" "abcd"), .drop 0, .drop 1,
        .deliver (.error (.rejected "nope")), .receive, .deliver (.ok ()), .finish] s :=
  ⟨_, rfl, rfl, rfl, delivers_of_run _ _ _ _ rfl⟩

end Dispatch

end Onboarding
