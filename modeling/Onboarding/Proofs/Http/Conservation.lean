import Onboarding.Proofs.Http.Server
import Onboarding.Proofs.Statistics
/-!
# Conservation — the counters, the store, the chain and the mails agree

A server is asked one request after the other, while payouts wait in the background and
the clock, the random source and the chain do what they like. As long as the store does
not fail, every success was counted, stored, paid and mailed, or none of the four:
`conserved_run` says so of every run from an empty store. What one act adds is the
success that it was answered with (`Ledgered.act`), and a run adds them up.
-/

namespace Onboarding

open StoreView

/-- One act of a run of a server. -/
inductive ServerAct where
  | request (q : HttpRequest)
  /-- The payout at this place among those that wait. -/
  | background (place : Nat)
  | surround (e : Surroundings)

/-- The store does not fail by this act. -/
def ServerAct.Safe : ServerAct → Prop
  | surround e => e.failing = []
  | _ => True

namespace Server

variable {σ : Type} [Store σ]

/-- The server before the first request. -/
def start (clock : Timestamp) : Server σ where
  world := .start clock

/-- The server after an act. -/
def act [StoreView σ] (settings : Settings) (s : Server σ) : ServerAct → Server σ
  | .request q => (handle settings q s).2
  | .background place => { s with world := s.world.background settings place }
  | .surround e => { s with world := s.world.surround e }

/-- The server after a run. -/
def run [StoreView σ] (settings : Settings) (acts : List ServerAct) (s : Server σ) : Server σ :=
  acts.foldl (act settings) s

/-- What an act adds to a success: one if it is a request that is answered with it. -/
def gain (settings : Settings) (k : Success) (s : Server σ) : ServerAct → Nat
  | .request q =>
    if succeeded (handle settings q s).1 ∧ q.route?.bind Route.success? = some k then 1 else 0
  | _ => 0

/-- How many requests of a run are answered with a success. -/
def answers [StoreView σ] (settings : Settings) (k : Success) : List ServerAct → Server σ → Nat
  | [], _ => 0
  | a :: acts, s => gain settings k s a + answers settings k acts (s.act settings a)

section Runs

variable [StoreView σ] (settings : Settings) (acts : List ServerAct) (a : ServerAct) (s : Server σ)

theorem run_concat : s.run settings (acts ++ [a]) = (s.run settings acts).act settings a :=
  List.foldl_concat _ _ _ _

theorem answers_concat (k : Success) : answers settings k (acts ++ [a]) s =
    answers settings k acts s + gain settings k (s.run settings acts) a := by
  induction acts generalizing s with
  | nil => exact Nat.add_comm _ _
  | cons a' acts ih =>
    show gain settings k s a' + answers settings k (acts ++ [a]) (s.act settings a') = _
    rw [ih, ← Nat.add_assoc]
    rfl

end Runs

/-! ## The invariant -/

variable [LawfulStore σ] {settings : Settings} {s : Server σ} {n : Success → Nat}

/-- The books and the counters of a server, by how often something succeeded. -/
structure Ledgered (settings : Settings) (s : Server σ) (n : Success → Nat) : Prop where
  good : s.world.Good
  safe : failing s.world.store = []
  balances : s.world.books.Balances settings n
  confirmations : s.metrics.confirmations = n .confirmed
  registrations : s.metrics.registrations = n .registered
  handled : ∀ k : Success, s.metrics.handled k.route 200 = n k

end Server

/-- Who waits and what fails is not in the balance. -/
theorem Books.Balances.rest {settings : Settings} {b : Books} {n : Success → Nat}
    (h : b.Balances settings n) (pending : List Owner) (failing : List StoreOp) :
    { b with pending, failing : Books }.Balances settings n where
  staked o := by
    cases h.staked o with
    | unpaid silent none => exact .unpaid silent none
    | paid row confirmed email once => exact .paid row confirmed email once
  named := h.named
  stakes := h.stakes
  welcomes := h.welcomes
  codes := h.codes
  rows := h.rows

/-- Nothing succeeded yet. -/
theorem Books.balances_start (settings : Settings) :
    (⟨.empty, [], [], [], [], []⟩ : Books).Balances settings fun _ => 0 where
  staked _ := .unpaid nofun rfl
  named := nofun
  stakes := rfl
  welcomes := rfl
  codes := rfl
  rows := ⟨[], .nil, fun _ => ⟨nofun, nofun⟩, rfl, rfl⟩

namespace Server.Ledgered

variable {σ : Type} [Store σ] [LawfulStore σ] {settings : Settings} {s : Server σ}
  {n : Success → Nat}

theorem start (settings : Settings) (clock : Timestamp) :
    Ledgered settings (.start clock : Server σ) fun _ => 0 where
  good := World.good_start clock
  safe := LawfulStore.failing_empty
  balances := by
    show (World.start clock : World σ).books.Balances settings _
    rw [World.books_start]
    exact Books.balances_start settings
  confirmations := rfl
  registrations := rfl
  handled _ := rfl

/-- What happens between requests leaves the counters alone. -/
theorem between (h : Ledgered settings s n) {w : World σ} (hgood : w.Good)
    (hsafe : failing w.store = []) (hbalances : w.books.Balances settings n) :
    Ledgered settings { s with world := w } n :=
  ⟨hgood, hsafe, hbalances, h.confirmations, h.registrations, h.handled⟩

/-- **An act keeps the balance** and adds the success that it was answered with. -/
theorem act (h : Ledgered settings s n) (a : ServerAct) (ha : a.Safe) :
    Ledgered settings (s.act settings a) fun k => n k + gain settings k s a := by
  cases a with
  | request q =>
    obtain ⟨entry, hserved⟩ := handle_served settings h.good q
    -- what the client was told is what was entered
    have hgain : ∀ k, gain settings k s (.request q) = entry.count k := by
      intro k
      unfold gain Entry.count
      rw [hserved.success]
      by_cases hsucceeded : succeeded (handle settings q s).1 = true <;> simp [hsucceeded]
    simp only [hgain]
    exact {
      good := hserved.made.good
      safe := hserved.made.step.failing_eq.trans h.safe
      balances := hserved.made.step.balances h.safe hserved.named h.balances
      confirmations := hserved.confirmations.trans (by rw [h.confirmations])
      registrations := hserved.registrations.trans (by rw [h.registrations])
      handled := fun k => (hserved.handled k).trans (by rw [h.handled]) }
  | background place =>
    show Ledgered settings { s with world := s.world.act settings (.background place) } n
    have hevent := act_event settings h.good (.background place)
    generalize s.world.act settings (.background place) = w at hevent ⊢
    have hgood := hevent.good h.good
    -- a payout in the background is no success of a request
    cases hevent with
    | advanced _ made done =>
      have hbefore := h.balances.rest (s.world.pending.eraseIdx place) s.world.books.failing
      refine h.between hgood (made.step.failing_eq.trans h.safe) ?_
      rcases done with ⟨p, rfl, -⟩ | ⟨rfl, -⟩
      · exact made.step.balances h.safe trivial hbefore
      · exact made.step.balances h.safe trivial hbefore
    | idle _ => exact h
  | surround e =>
    show Ledgered settings { s with world := s.world.act settings (.surround e) } n
    refine h.between ((act_event settings h.good (.surround e)).good h.good) ?_ ?_
    · exact World.failing_surround ha s.world
    · have hcontents := LawfulStore.contents_failOn e.failing s.world.store
      unfold World.act World.surround World.books
      rw [hcontents]
      exact h.balances.rest _ _

/-- **A run keeps the balance.** -/
theorem run (h : Ledgered settings s fun _ => 0) (acts : List ServerAct)
    (hacts : ∀ a ∈ acts, a.Safe) :
    Ledgered settings (s.run settings acts) fun k => answers settings k acts s := by
  induction acts using List.reverseRecOn with
  | nil => exact h
  | append_singleton acts a ih =>
    simp only [run_concat, answers_concat]
    exact (ih fun a' ha' => hacts a' (List.mem_append_left _ ha')).act a (hacts a (by simp))

end Server.Ledgered

/-! ## What is reported -/

namespace Server

variable {σ : Type} [Store σ] {settings : Settings} {s : Server σ}

/-- What `/v1/registration/stats` answers. -/
theorem handle_registrationStats {q : HttpRequest} (hq : isRequest q = true)
    (hmethod : q.method = "GET") (hroute : q.route? = some .registrationStats)
    {rs : List Registration} (h : Store.confirmedRegistrations s.world.store = .ok rs) :
    (handle settings q s).1 =
      .ok (.json 200 (RegistrationStats.schema.toJson ⟨rs.length, countByDay rs⟩)) := by
  obtain ⟨path, hpath, hpathRoute⟩ := Option.bind_eq_some_iff.1 hroute
  have hanswer : handle settings q s = answer settings q .registrationStats s := by
    unfold handle
    rw [hpath]
    dsimp only
    rw [hq, hpathRoute, hmethod]
    rfl
  have hcall : call registrationStats s = (.ok ⟨rs.length, countByDay rs⟩, s) := by
    unfold call
    rw [registrationStats_eq h]
  have hstatistics : statistics s =
      (.ok (RegistrationStats.schema.toJson ⟨rs.length, countByDay rs⟩), s) :=
    Computation.bind_of_ok hcall
  rw [hanswer]
  show (counted "registration_stats" (.json 200) statistics s).1 = _
  unfold counted
  rw [hstatistics]
  rfl

/-! ## Whole runs -/

/-- The counters of a server agree with the store, the chain and the mails, after so many
grants. -/
structure Conserved [StoreView σ] (settings : Settings) (s : Server σ) (grants : Nat) : Prop where
  /-- The store lists what is confirmed, once each. -/
  rows : ∃ rs, Store.confirmedRegistrations s.world.store = .ok rs ∧ rs.Nodup ∧
    (∀ r, r ∈ rs ↔ (contents s.world.store).Confirmed r) ∧
    -- as many of them have an email as there were confirmations
    rs.countP (·.email ≠ "") = s.metrics.confirmations ∧
    -- and to each of these went one stake
    (∀ r ∈ rs, r.email ≠ "" →
      s.world.ledger.transfers.filter (·.memo = Confirmation.stakeMemo r.owner) =
        [⟨r.address, settings.initialStake, Confirmation.stakeMemo r.owner⟩]) ∧
    rs.length = s.metrics.confirmations + grants
  confirmed : s.metrics.handled "confirm" 200 = s.metrics.confirmations
  stakes : s.world.ledger.transfers.countP (fun t => Purpose.stake.Leads t.memo) =
    s.metrics.confirmations
  welcomes : Mail.welcomeCount s.world.outbox = s.metrics.confirmations
  registered : s.metrics.handled "register" 200 = s.metrics.registrations
  codes : (Mail.codes s.world.outbox).length = s.metrics.registrations
  reported : ∀ q : HttpRequest, isRequest q = true → q.method = "GET" →
    q.route? = some .registrationStats → ∃ byDay, (handle settings q s).1 = .ok (.json 200
      (RegistrationStats.schema.toJson ⟨s.metrics.confirmations + grants, byDay⟩))

/-- What the invariant says to whoever asks. -/
theorem Ledgered.conserved [LawfulStore σ] {n : Success → Nat} (h : Ledgered settings s n) :
    s.Conserved settings (n .granted) := by
  obtain ⟨rs, hrs, hnodup, hmem⟩ :=
    (LawfulStore.confirmedRegistrations h.good.sound).eq_ok (by rw [h.safe]; exact List.not_mem_nil)
  obtain ⟨counted, hcounted, hmem', hconfirmed, hgranted⟩ := h.balances.rows
  -- what the store lists and what was counted are the same registrations
  have hperm : rs.Perm counted :=
    (List.perm_ext_iff_of_nodup hnodup hcounted).2 fun r => (hmem r).trans (hmem' r).symm
  -- they have an email or they have none
  have hlength : rs.length = n .confirmed + n .granted := by
    rw [hperm.length_eq, List.length_eq_countP_add_countP (p := (·.email ≠ "")), hconfirmed,
      ← hgranted]
    simp
  have hstaked : ∀ r ∈ rs, r.email ≠ "" →
      s.world.ledger.transfers.filter (·.memo = Confirmation.stakeMemo r.owner) =
        [settings.stake r] := by
    intro r hr hemail
    obtain ⟨hheld, hopen⟩ := (hmem r).1 hr
    cases h.balances.staked r.owner with
    | unpaid silent _ => exact absurd (silent r hheld hopen) hemail
    | paid row _ _ once =>
      cases hheld.symm.trans row
      exact once
  exact {
    rows := by
      refine ⟨rs, hrs, hnodup, hmem, ?_, hstaked, ?_⟩
      · rw [h.confirmations, hperm.countP_eq, hconfirmed]
      · rw [h.confirmations, hlength]
    confirmed := (h.handled .confirmed).trans h.confirmations.symm
    stakes := h.balances.stakes.trans h.confirmations.symm
    welcomes := h.balances.welcomes.trans h.confirmations.symm
    registered := (h.handled .registered).trans h.registrations.symm
    codes := h.balances.codes.trans h.registrations.symm
    reported := fun q hq hmethod hroute => by
      refine ⟨countByDay rs, ?_⟩
      rw [handle_registrationStats hq hmethod hroute hrs, hlength, h.confirmations] }

/-- **Nothing is counted that was not stored, paid and mailed**, and nothing the other way
round, in every run on every store that does not fail. -/
theorem conserved_run (kind : StoreKind) (settings : Settings) (clock : Timestamp)
    (acts : List ServerAct) (hacts : ∀ a ∈ acts, a.Safe) :
    ((start clock : Server kind.State).run settings acts).Conserved settings
      (answers settings .granted acts (start clock : Server kind.State)) :=
  ((Ledgered.start settings clock).run acts hacts).conserved

/-- Requests that register a wallet and confirm it, the first time while the chain refuses
every transfer, and one that asks for a grant. -/
def servedActs : List ServerAct :=
  let confirming : HttpRequest :=
    { method := "GET"
      target := "/v1/confirm/bea112c11facdedc0ab577545efbafa8/00000000000000000000000000000001" }
  [.request
      { method := "POST"
        target := "/v1/register"
        contentType := some "application/json"
        body := "\x7b\"email\":\" A@x.com\"," ++
          "\"address\":\"decentr1vg085ra5hw8mx5rrheqf8fruks0xv4urqkuqga\"\x7d" },
    .surround { clock := ⟨1700000100⟩, refusesAll := true },
    .request confirming,
    .surround { clock := ⟨1700000200⟩ },
    .request confirming,
    .request
      { method := "POST"
        target := "/v1/testnet/stake"
        contentType := some "application/json"
        body := "\x7b\"address\":\"decentr190vqdjtlpcq27xslcveglfmr4ynfwg7gt47r3m\"\x7d" },
    .background 0]

/-- The counters agree after a confirmation that had to be asked for twice, and a grant. -/
theorem conserved_run_served :
    (∀ a ∈ servedActs, a.Safe) ∧
      ((start ⟨1700000000⟩ : Server StoreKind.indexed.State).run { testnetStake := some ⟨5⟩ }
        servedActs).Conserved { testnetStake := some ⟨5⟩ }
        (answers { testnetStake := some ⟨5⟩ } .granted servedActs
          (start ⟨1700000000⟩ : Server StoreKind.indexed.State)) := by
  have hsafe : ∀ a ∈ servedActs, a.Safe := by
    simp [servedActs, ServerAct.Safe]
  exact ⟨hsafe, conserved_run .indexed _ _ servedActs hsafe⟩

end Server

end Onboarding
