import Mathlib.Data.List.Induction
import Mathlib.Tactic.ByContra
import Onboarding.Daemon.Startup
/-!
# Starting up — which signals the server hears

A signal goes to those who listen when it is sent, so it is a matter of order whether the
server hears it. The watch for signals is started before the server listens: a signal it
catches in between is sent to nobody, or to the reporter alone, and since the watch sends
only one the server serves on. What holds of every order of the acts is that the server
hears exactly the signals sent after it listened, and so does the reporter; the second
signal, with which the main task ends, changes neither.
-/

namespace Onboarding

namespace Startup

/-- A signal was caught after the act `x`. -/
def SignalledAfter (x : Act) (acts : List Act) : Prop :=
  ∃ before after, acts = before ++ .signal :: after ∧ x ∈ before

/-- Everyone who has to stop has heard the signal or is about to. -/
def Notified (s : Startup) : Prop :=
  s.stops = true ∧ ∀ l, s.reporter = some l → s.beacon.wakes l = true

variable {x a : Act} {acts : List Act} {s s' : Startup} {b : Beacon} {l : Listener}

/-! ## Signals in a list of acts -/

theorem SignalledAfter.mem (h : SignalledAfter x acts) : x ∈ acts := by
  obtain ⟨before, after, rfl, hx⟩ := h
  simp [hx]

theorem signalledAfter_append_singleton :
    SignalledAfter x (acts ++ [a]) ↔ SignalledAfter x acts ∨ a = .signal ∧ x ∈ acts := by
  constructor
  · rintro ⟨before, after, h, hx⟩
    rcases List.eq_nil_or_concat after with rfl | ⟨after, a', rfl⟩
    · obtain ⟨rfl, ha⟩ := List.append_inj' h rfl
      exact .inr ⟨List.singleton_inj.1 ha, hx⟩
    · have h' : acts ++ [a] = (before ++ .signal :: after) ++ [a'] := by simpa using h
      exact .inl ⟨before, after, (List.append_inj' h' rfl).1, hx⟩
  · rintro (⟨before, after, rfl, hx⟩ | ⟨rfl, hx⟩)
    · exact ⟨before, after ++ [a], by simp, hx⟩
    · exact ⟨acts, [], rfl, hx⟩

/-- Only a signal makes a difference to what was signalled. -/
theorem signalledAfter_append_of_ne (ha : a ≠ .signal) :
    SignalledAfter x (acts ++ [a]) ↔ SignalledAfter x acts := by
  simp [signalledAfter_append_singleton, ha]

/-! ## One who listens -/

/-- `l` listens since the act `x`: what it has not heard is what was signalled since. -/
structure Follows (x : Act) (acts : List Act) (b : Beacon) (l : Listener) : Prop where
  mem : x ∈ acts
  seen_le : l.seen ≤ b.sent
  seen_lt_iff : l.seen < b.sent ↔ SignalledAfter x acts

/-- Whoever listens is woken when something was signalled since; one who missed signals
is woken by the last of them. -/
theorem Follows.wakes_iff (h : Follows x acts b l) (hb : b.closed = false) :
    b.wakes l = true ↔ SignalledAfter x acts := by
  rw [← h.seen_lt_iff]
  have := h.seen_le
  by_cases heq : l.seen = b.sent
  · simp [Beacon.wakes, Beacon.hear, heq, hb]
  · have hlt : l.seen < b.sent := by omega
    simp only [Beacon.wakes, Beacon.hear, heq, hlt, if_false, iff_true]
    split <;> rfl

theorem follows_listen (hx : x ∉ acts) (hne : x ≠ .signal) :
    Follows x (acts ++ [x]) b b.listen where
  mem := by simp
  seen_le := Nat.le_refl b.sent
  seen_lt_iff := by
    rw [signalledAfter_append_of_ne hne]
    exact iff_of_false (Nat.lt_irrefl b.sent) (hx ∘ SignalledAfter.mem)

theorem Follows.append (h : Follows x acts b l) (ha : a ≠ .signal) :
    Follows x (acts ++ [a]) b l where
  mem := List.mem_append_left _ h.mem
  seen_le := h.seen_le
  seen_lt_iff := h.seen_lt_iff.trans (signalledAfter_append_of_ne ha).symm

/-- Everyone who listens when a signal is sent has it before them. -/
theorem Follows.signal (h : Follows x acts b l) (hs : SignalledAfter x (acts ++ [a])) {n : Nat}
    (hb : b.closed = false) (hn : 0 < n) : Follows x (acts ++ [a]) (b.signal n) l := by
  have := h.seen_le
  have hsent : (b.signal n).sent = b.sent + 1 := by
    simp [Beacon.signal, hb, Nat.pos_iff_ne_zero.1 hn]
  exact ⟨List.mem_append_left _ h.mem, by omega, iff_of_true (by omega) hs⟩

/-! ## How far both tasks have come -/

@[simp, grind =]
theorem signal_closed (b : Beacon) (n : Nat) : (b.signal n).closed = b.closed := by
  unfold Beacon.signal
  split <;> rfl

/-- The acts so far are those that bring both tasks where they are. -/
structure Placed (acts : List Act) (s : Startup) : Prop where
  closed : s.beacon.closed = false
  watch_iff : s.watch = .done ↔ .signal ∈ acts
  absent_iff : s.watch = .absent ↔ s.stage = .opened
  reporterListens_iff : .reporterListens ∈ acts ↔ Stage.rank .reporting ≤ s.stage.rank
  serverListens_iff : .serverListens ∈ acts ↔ Stage.rank .prepared ≤ s.stage.rank
  stopped : Stage.rank .stopped ≤ s.stage.rank → s.resolved = true

theorem placed_start : Placed [] { } := by
  constructor <;> decide

theorem Placed.act (h : Placed acts s) (hs : s.act a = some s') : Placed (acts ++ [a]) s' := by
  obtain ⟨hc, hw, ho, hr, hv, ht⟩ := h
  cases a <;> simp only [Startup.act, Option.ite_none_right_eq_some, Option.some.injEq] at hs
  case reporterEnds =>
    subst hs
    constructor <;> grind
  all_goals
    obtain ⟨hg, rfl⟩ := hs
    constructor <;> grind [Stage.rank]

/-- The reporter listens before the server does. -/
theorem Placed.reporterListens_mem (h : Placed acts s) (hv : .serverListens ∈ acts) :
    .reporterListens ∈ acts := by
  rw [h.serverListens_iff] at hv
  exact h.reporterListens_iff.2 (Nat.le_trans (by decide) hv)

/-- The watch sends one signal and no other. -/
theorem Placed.act_signal (h : Placed acts s) (hs : s.act .signal = some s') :
    .signal ∉ acts := by
  intro hmem
  simp [Startup.act, h.watch_iff.2 hmem] at hs

/-- What those who listen have heard and have yet to hear. -/
structure Informed (acts : List Act) (s : Startup) : Prop where
  reporter : ∀ l, s.reporter = some l → Follows .reporterListens acts s.beacon l
  server : ∀ l, s.server = some l → Follows .serverListens acts s.beacon l
  /-- The server waits until it hears the signal. -/
  waits : .serverListens ∈ acts → s.resolved = false → ∃ l, s.server = some l
  resolved : s.resolved = true → SignalledAfter .serverListens acts
  /-- What the server can hear, so can the reporter. -/
  signalled : SignalledAfter .serverListens acts → SignalledAfter .reporterListens acts

theorem informed_start : Informed [] { } where
  reporter _ hl := nomatch hl
  server _ hl := nomatch hl
  waits hm := nomatch hm
  resolved hr := nomatch hr
  signalled hs := nomatch hs.mem

/-- An act that sends nothing and lets nobody listen leaves to hear what there was; the
reporter may end. -/
theorem Informed.append (h : Informed acts s) (ha : a ≠ .signal) (hv : a ≠ .serverListens)
    (hbeacon : s'.beacon = s.beacon) (hserver : s'.server = s.server)
    (hresolved : s'.resolved = s.resolved)
    (hreporter : ∀ l, s'.reporter = some l → s.reporter = some l) :
    Informed (acts ++ [a]) s' where
  reporter l hl := hbeacon ▸ (h.reporter l (hreporter l hl)).append ha
  server l hl := hbeacon ▸ (h.server l (hserver ▸ hl)).append ha
  waits hm hr := hserver ▸ h.waits (by simpa [hv.symm] using hm) (hresolved ▸ hr)
  resolved hr := (signalledAfter_append_of_ne ha).2 (h.resolved (hresolved ▸ hr))
  signalled := by simpa only [signalledAfter_append_of_ne ha] using h.signalled

theorem listeners_pos_of_reporter (h : s.reporter = some l) : 0 < s.listeners := by
  simp only [listeners, h, Option.toList_some, List.length_singleton]
  omega

theorem listeners_pos_of_server (h : s.server = some l) : 0 < s.listeners := by
  simp only [listeners, h, Option.toList_some, List.length_singleton]
  omega

/-- The signal is sent, by the watch or once more by the main task, and everyone who
listens has it before them. -/
theorem Informed.send (h : Informed acts s) (hp : Placed acts s) (ha : a ≠ .serverListens)
    (hr : .reporterListens ∈ acts → SignalledAfter .reporterListens (acts ++ [a]))
    (hv : .serverListens ∈ acts → SignalledAfter .serverListens (acts ++ [a]))
    (hbeacon : s'.beacon = s.beacon.signal s.listeners) (hreporter : s'.reporter = s.reporter)
    (hserver : s'.server = s.server) (hresolved : s'.resolved = s.resolved) :
    Informed (acts ++ [a]) s' := by
  have hmem : .serverListens ∈ acts ++ [a] → .serverListens ∈ acts := by simp [ha.symm]
  constructor
  · intro l hl
    rw [hreporter] at hl
    have hf := h.reporter l hl
    exact hbeacon ▸ hf.signal (hr hf.mem) hp.closed (listeners_pos_of_reporter hl)
  · intro l hl
    rw [hserver] at hl
    have hf := h.server l hl
    exact hbeacon ▸ hf.signal (hv hf.mem) hp.closed (listeners_pos_of_server hl)
  · exact fun hm hn => hserver ▸ h.waits (hmem hm) (hresolved ▸ hn)
  · exact fun hn => hv (h.resolved (hresolved ▸ hn)).mem
  · exact fun hs => hr (hp.reporterListens_mem (hmem hs.mem))

theorem Informed.act (h : Informed acts s) (hp : Placed acts s) (hs : s.act a = some s') :
    Informed (acts ++ [a]) s' := by
  cases a <;> simp only [Startup.act, Option.ite_none_right_eq_some, Option.some.injEq] at hs
  case signal =>
    obtain ⟨-, rfl⟩ := hs
    have hsig {x} (hx : x ∈ acts) : SignalledAfter x (acts ++ [.signal]) :=
      signalledAfter_append_singleton.2 (.inr ⟨rfl, hx⟩)
    exact h.send hp (by simp) hsig hsig rfl rfl rfl rfl
  case dismiss =>
    -- The server has returned, so it heard a signal, and so could the reporter.
    obtain ⟨hg, rfl⟩ := hs
    have hv : SignalledAfter .serverListens acts := h.resolved (hp.stopped (by simp [hg]))
    have hne : Act.dismiss ≠ .signal := by simp
    exact h.send hp (by simp) (fun _ => (signalledAfter_append_of_ne hne).2 (h.signalled hv))
      (fun _ => (signalledAfter_append_of_ne hne).2 hv) rfl rfl rfl rfl
  case reporterListens =>
    obtain ⟨hg, rfl⟩ := hs
    have hnew : .reporterListens ∉ acts := by simp [hp.reporterListens_iff, hg, Stage.rank]
    have hrest : Informed (acts ++ [.reporterListens]) s :=
      h.append (by simp) (by simp) rfl rfl rfl (by simp)
    refine { hrest with reporter := ?_ }
    rintro l ⟨⟩
    exact follows_listen hnew (by simp)
  case serverListens =>
    obtain ⟨hg, rfl⟩ := hs
    have hnew : .serverListens ∉ acts := by simp [hp.serverListens_iff, hg, Stage.rank]
    have hne : Act.serverListens ≠ .signal := by simp
    constructor
    · exact fun l hl => (h.reporter l hl).append hne
    · rintro l ⟨⟩
      exact follows_listen hnew hne
    · exact fun _ _ => ⟨_, rfl⟩
    · exact fun hr => absurd (h.resolved hr).mem hnew
    · simpa only [signalledAfter_append_of_ne hne] using h.signalled
  case serverHears =>
    obtain ⟨hg, rfl⟩ := hs
    simp only [wakes, Bool.and_eq_true, decide_eq_true_eq, Option.any_eq_true] at hg
    obtain ⟨-, l, hl, hwake⟩ := hg
    have hrest : Informed (acts ++ [.serverHears]) s :=
      h.append (by simp) (by simp) rfl rfl rfl (by simp)
    have hheard := ((hrest.server l hl).wakes_iff hp.closed).1 hwake
    exact { hrest with server := by simp, waits := by simp, resolved := fun _ => hheard }
  case reporterEnds =>
    subst hs
    exact h.append (by simp) (by simp) rfl rfl rfl (by simp)
  all_goals
    obtain ⟨-, rfl⟩ := hs
    exact h.append (by simp) (by simp) rfl rfl rfl (by simp)

/-! ## Every order of the acts -/

theorem run_append_singleton :
    run (acts ++ [a]) = some s' ↔ ∃ s, run acts = some s ∧ s.act a = some s' := by
  simp [run, List.foldlM_append, Option.bind_eq_some_iff]

theorem placed_run (h : run acts = some s) : Placed acts s ∧ Informed acts s := by
  induction acts using List.reverseRecOn generalizing s with
  | nil =>
    obtain rfl : { } = s := by simpa [run] using h
    exact ⟨placed_start, informed_start⟩
  | append_singleton acts a ih =>
    obtain ⟨s₀, h₀, ha⟩ := run_append_singleton.1 h
    obtain ⟨hp, hi⟩ := ih h₀
    exact ⟨hp.act ha, hi.act hp ha⟩

/-- The server has heard a signal, or will, if and only if one was caught since it
listened. -/
theorem stops_iff (h : run acts = some s) (hv : .serverListens ∈ acts) :
    s.stops = true ↔ SignalledAfter .serverListens acts := by
  obtain ⟨hp, hi⟩ := placed_run h
  cases hr : s.resolved with
  | true => simp [stops, hr, hi.resolved hr]
  | false =>
    obtain ⟨l, hl⟩ := hi.waits hv hr
    simpa [stops, wakes, hr, hl] using (hi.server l hl).wakes_iff hp.closed

/-- And the reporter, as long as it runs, if and only if one was caught since it did. -/
theorem reporter_wakes_iff (h : run acts = some s) (hl : s.reporter = some l) :
    s.beacon.wakes l = true ↔ SignalledAfter .reporterListens acts :=
  let ⟨hp, hi⟩ := placed_run h
  (hi.reporter l hl).wakes_iff hp.closed

/-- **Once the main task serves, everyone who has to stop is notified if and only if the
signal was caught after the server listened**, in whatever order the two tasks took
their steps. -/
theorem notified_iff (h : run acts = some s) (hs : s.serves = true) :
    s.Notified ↔ SignalledAfter .serverListens acts := by
  obtain ⟨hp, hi⟩ := placed_run h
  have hv : .serverListens ∈ acts :=
    hp.serverListens_iff.2 (Nat.le_trans (by decide) (of_decide_eq_true hs))
  rw [Notified, stops_iff h hv, and_iff_left_iff_imp]
  intro hsig l hl
  exact (reporter_wakes_iff h hl).2 (hi.signalled hsig)

/-- A signal caught in good time, and a second one sent once the server has returned,
which the reporter hears as the last of two. -/
theorem notified_twice :
    let s : Startup :=
      { stage := .closing, watch := .done, beacon := { sent := 2 }, reporter := some ⟨0⟩,
        resolved := true }
    let acts : List Act :=
      [.startWatch, .reporterListens, .watchReady, .serverListens, .signal, .serve,
        .serverHears, .serverReturns, .dismiss]
    (run acts = some s ∧ s.serves = true) ∧ (s.Notified ↔ SignalledAfter .serverListens acts) :=
  ⟨by decide, notified_iff (by decide) (by decide)⟩

/-- A signal caught while the reporter listens and the server does not yet. -/
theorem not_notified_of_early : ∃ s : Startup,
    run [.startWatch, .watchReady, .reporterListens, .signal, .serverListens, .serve] = some s ∧
      s.serves = true ∧ ¬ s.Notified :=
  ⟨_, rfl, rfl, fun h => absurd h.1 (by decide)⟩

/-- A signal caught before `x` is lost to it for good: no other follows. -/
theorem not_signalledAfter_of_lost {more : List Act} (hsig : .signal ∈ acts)
    (hx : ¬ SignalledAfter x acts) (h : run (acts ++ more) = some s) :
    ¬ SignalledAfter x (acts ++ more) := by
  induction more using List.reverseRecOn generalizing s with
  | nil => simpa using hx
  | append_singleton more a ih =>
    rw [← List.append_assoc] at h ⊢
    obtain ⟨s₀, h₀, ha⟩ := run_append_singleton.1 h
    rw [signalledAfter_append_singleton]
    rintro (hx | ⟨rfl, -⟩)
    · exact ih h₀ hx
    · exact (placed_run h₀).1.act_signal ha (List.mem_append_left _ hsig)

/-- **A daemon whose server listened too late never stops**: whatever happens next, the
main task comes no further than serving. -/
theorem rank_le_of_lost {more : List Act} (hsig : .signal ∈ acts)
    (hlost : ¬ SignalledAfter .serverListens acts) (h : run (acts ++ more) = some s) :
    s.stage.rank ≤ Stage.rank .serving := by
  obtain ⟨hp, hi⟩ := placed_run h
  by_contra hlt
  have hheard := hi.resolved (hp.stopped (Nat.lt_of_not_le hlt))
  exact not_signalledAfter_of_lost hsig hlost h hheard

end Startup

end Onboarding
