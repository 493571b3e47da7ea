import Mathlib.Data.List.Induction
import Onboarding.Proofs.Service.Confirmation
import Onboarding.Proofs.Service.Evolution
import Onboarding.Proofs.Service.Faucet
import Onboarding.Proofs.Service.Payout
import Onboarding.Proofs.Store.Kind
import Onboarding.Service.Report
/-!
# Runs — calls, background payouts and changing surroundings, in any order

A run is a list of acts. An act is a call on the service, a payout that waited in the
background, or a change of what the service cannot help: the clock, the random source,
which transfers the chain refuses, and which operations of the store fail. `act_event`
says what one act does; `books_run` takes what every entry keeps through a whole run.
-/

namespace Onboarding

open StoreView

/-- A text that a store can measure. -/
abbrev BoundedText := { s : String // byteLength s < UInt64.size }

theorem BoundedText.byteLength_of_map {text? : Option BoundedText} {s : String}
    (h : text?.map (·.1) = some s) : byteLength s < UInt64.size := by
  obtain ⟨text, -, rfl⟩ := Option.map_eq_some_iff.1 h
  exact text.2

/-- A call on the service. -/
inductive Call where
  | register (email : BoundedText) (address : WalletAddress) (code? : Option BoundedText)
  | trackReferral (receiver : Owner) (code : String)
  | confirm (owner : Owner) (code : String)
  | markInstalled (receiver : Owner)
  | advanceReferral (receiver : Owner)
  | grantTestnetStake (address : WalletAddress)
  | registrationStats
  | senderStats (sender : Owner)
  | staleReferrals (days : UInt64)
  | pingChain

/-- What the service cannot help. -/
structure Surroundings where
  clock : Timestamp
  random : Randomness := { }
  /-- Every transfer is refused. -/
  refusesAll : Bool := false
  /-- Wallets that transfers are refused to. -/
  refused : List WalletAddress := []
  /-- Which of the next transfers are refused. -/
  outages : List Bool := []
  isUnreachable : Bool := false
  /-- Operations of the store that fail. -/
  failing : List StoreOp := []

/-- One act of a run. -/
inductive Act where
  | call (c : Call)
  /-- The payout at this place among those that wait. -/
  | background (place : Nat)
  | surround (e : Surroundings)

/-- The store does not fail by this act. -/
def Act.Safe : Act → Prop
  | surround e => e.failing = []
  | _ => True

/-- The world after a call. -/
def Call.after {σ : Type} [Store σ] (settings : Settings) (w : World σ) : Call → World σ
  | register email address code? =>
    (Onboarding.register settings email.1 address (code?.map (·.1)) w).2
  | trackReferral receiver code => (Onboarding.trackReferral receiver code w).2
  | confirm owner code => (Onboarding.confirm settings owner code w).2
  | markInstalled receiver => (Onboarding.markInstalled receiver w).2
  | advanceReferral receiver => (Onboarding.advanceReferral settings receiver w).2
  | grantTestnetStake address => (Onboarding.grantTestnetStake settings address w).2
  | registrationStats => (Onboarding.registrationStats w).2
  | senderStats sender => (Onboarding.senderStats sender w).2
  | staleReferrals days => (Onboarding.staleReferrals days w).2
  | pingChain => (Onboarding.pingChain w).2

namespace World

variable {σ : Type} [Store σ]

/-- The world before the first act. -/
def start (clock : Timestamp) : World σ where
  store := Store.empty
  clock

/-- The world in other surroundings. -/
def surround [StoreView σ] (e : Surroundings) (w : World σ) : World σ :=
  { w with
    store := failOn e.failing w.store
    random := e.random
    clock := e.clock
    ledger := { w.ledger with
      refusesAll := e.refusesAll
      refused := e.refused
      outages := e.outages
      isUnreachable := e.isUnreachable } }

/-- The world after the payout at a place among those that wait; as it is if none waits
there. -/
def background (settings : Settings) (place : Nat) (w : World σ) : World σ :=
  match w.pending[place]? with
  | some receiver =>
    (advanceReferral settings receiver { w with pending := w.pending.eraseIdx place }).2
  | none => w

/-- The world after an act. -/
def act [StoreView σ] (settings : Settings) (w : World σ) : Act → World σ
  | .call c => c.after settings w
  | .background place => w.background settings place
  | .surround e => w.surround e

/-- The world after a run. -/
def run [StoreView σ] (settings : Settings) (acts : List Act) (w : World σ) : World σ :=
  acts.foldl (act settings) w

/-- A run that goes on for one more act. -/
theorem run_concat [StoreView σ] (settings : Settings) (acts : List Act) (a : Act) (w : World σ) :
    w.run settings (acts ++ [a]) = (w.run settings acts).act settings a :=
  List.foldl_concat _ _ _ _

end World

/-! ## One act -/

section Reports

variable {σ : Type} [Store σ]

theorem registrationStats_snd (w : World σ) : (registrationStats w).2 = w := by
  unfold registrationStats
  rcases ServiceM.read_cases Store.confirmedTotal w with ⟨n, -, hread⟩ | ⟨e, -, hread⟩
  · rw [Computation.bind_of_ok hread, Computation.bind_pure_snd]
    rcases ServiceM.read_cases Store.confirmedByDay w with ⟨d, -, hread⟩ | ⟨e, -, hread⟩ <;>
      rw [hread]
  · rw [Computation.bind_of_error hread]

theorem senderStats_snd (sender : Owner) (w : World σ) : (senderStats sender w).2 = w := by
  unfold senderStats
  rcases ServiceM.read_cases (Store.referralStats · sender) w with ⟨n, -, hread⟩ | ⟨e, -, hread⟩ <;>
    rw [hread]

theorem staleReferrals_snd (days : UInt64) (w : World σ) : (staleReferrals days w).2 = w := by
  unfold staleReferrals
  rw [Computation.bind_of_ok (ServiceM.now_apply w)]
  rcases ServiceM.read_cases (Store.installedBefore · (w.clock.minusDays days)) w with
    ⟨n, -, hread⟩ | ⟨e, -, hread⟩ <;> rw [hread]

theorem pingChain_snd {σ : Type} (w : World σ) : (pingChain w).2 = w := by
  unfold pingChain
  cases w.ledger.ping <;> rfl

end Reports

/-- Which entry a call may make of a world, and what it answers with it. -/
inductive Makes {σ : Type} [Store σ] [StoreView σ] (settings : Settings) (w : World σ) :
    Call → Entry → Prop
  | nothing {c : Call} : Makes settings w c .nothing
  | enrolled {email : BoundedText} {address : WalletAddress} {code? : Option BoundedText}
      {r : Registration} (owner_eq : r.owner = .ofEmail email.1) :
    Makes settings w (.register email address code?) (.enrolled r)
  | renewed {email : BoundedText} {address : WalletAddress} {code? : Option BoundedText}
      {r : Registration} (owner_eq : r.owner = .ofEmail email.1) :
    Makes settings w (.register email address code?) (.renewed r)
  | tracked {code : String} {r : Registration} :
    Makes settings w (.trackReferral r.owner code) (.tracked r)
  | confirming {owner : Owner} {code : String} {entry : Entry}
      (answer : Confirming owner code (confirm settings owner code w).1 entry) :
    Makes settings w (.confirm owner code) entry
  | installed {f : Referral} : Makes settings w (.markInstalled f.receiver) (.installed f)
  | paid {p : Payout} : Makes settings w (.advanceReferral p.receiver) (.paid p)
  | granting {address : WalletAddress} {entry : Entry}
      (answer : Granting w address (grantTestnetStake settings address w).1 entry) :
    Makes settings w (.grantTestnetStake address) entry

namespace Makes

variable {σ : Type} [Store σ] [StoreView σ] {settings : Settings} {w : World σ} {c : Call}

/-- Only a confirmation that succeeds makes an entry that confirms. -/
theorem of_confirmed {r : Registration} (h : Makes settings w c (.confirmed r)) :
    ∃ code, c = .confirm r.owner code ∧ (confirm settings r.owner code w).1 = .ok () := by
  cases h with
  | @confirming owner code _ answer =>
    generalize hx : (confirm settings owner code w).1 = x at answer
    cases answer with
    | done howner _ =>
      subst howner
      exact ⟨code, rfl, hx⟩
  | granting answer =>
    generalize (grantTestnetStake settings _ w).1 = x at answer
    cases answer

/-- Only a grant that answers an error makes an entry that is lost. -/
theorem of_grantLost {address : WalletAddress} (h : Makes settings w c (.grantLost address)) :
    c = .grantTestnetStake address ∧
      (∃ e, (grantTestnetStake settings address w).1 = .error e) ∧
      (failing w.store = [] → ∃ e p, Faucet.codes (w.store, w.random) = (.error e, p)) := by
  cases h with
  | @granting address' _ answer =>
    generalize hx : (grantTestnetStake settings address' w).1 = x at answer
    cases answer with
    | @lost e undrawn => exact ⟨rfl, ⟨e, hx⟩, undrawn⟩
  | confirming answer =>
    generalize (confirm settings _ _ w).1 = x at answer
    cases answer

end Makes

section Calls

variable {σ : Type} [Store σ] [LawfulStore σ] {settings : Settings} {w : World σ}

/-- **A call makes one entry**, of those that are its own. -/
theorem call_made (hw : w.Good) (c : Call) :
    ∃ entry, Makes settings w c entry ∧ Made settings w (c.after settings w) entry := by
  -- reading makes no entry
  have hread : ∀ w', w' = w → ∃ entry, Makes settings w c entry ∧ Made settings w w' entry := by
    intro w' hw'
    rw [hw']
    exact ⟨.nothing, .nothing, .nothing hw w.random⟩
  cases c with
  | register email address code? =>
    rcases register_made hw email.2 fun _ => BoundedText.byteLength_of_map with
      ⟨r, entry, ⟨rfl, -⟩ | rfl, howner, -, hmade⟩ | ⟨-, hmade⟩
    · exact ⟨.enrolled r, .enrolled howner, hmade⟩
    · exact ⟨.renewed r, .renewed howner, hmade⟩
    · exact ⟨.nothing, .nothing, hmade⟩
  | trackReferral receiver code =>
    rcases trackReferral_made hw with ⟨r, howner, -, hmade⟩ | ⟨-, hmade⟩
    · refine ⟨.tracked r, ?_, hmade⟩
      rw [← howner]
      exact .tracked
    · exact ⟨.nothing, .nothing, hmade⟩
  | confirm owner code =>
    obtain ⟨entry, hanswer, hmade⟩ := confirm_made settings hw owner code
    exact ⟨entry, .confirming hanswer, hmade⟩
  | markInstalled receiver =>
    rcases markInstalled_made hw receiver with ⟨f, rfl, hmade⟩ | hmade
    · exact ⟨.installed f, .installed, hmade⟩
    · exact ⟨.nothing, .nothing, hmade⟩
  | advanceReferral receiver =>
    rcases advanceReferral_made settings hw receiver with ⟨p, rfl, hmade⟩ | ⟨hmade, -⟩
    · exact ⟨.paid p, .paid, hmade⟩
    · exact ⟨.nothing, .nothing, hmade⟩
  | grantTestnetStake address =>
    obtain ⟨entry, hanswer, hmade⟩ := grantTestnetStake_made hw address
    exact ⟨entry, .granting hanswer, hmade⟩
  | registrationStats => exact hread _ (registrationStats_snd w)
  | senderStats sender => exact hread _ (senderStats_snd sender w)
  | staleReferrals days => exact hread _ (staleReferrals_snd days w)
  | pingChain => exact hread _ (pingChain_snd w)

end Calls

/-- What an act does to a world. -/
inductive Event {σ : Type} [Store σ] [StoreView σ] (settings : Settings) (w : World σ) :
    Act → World σ → Prop
  | called {c : Call} {entry : Entry} {w' : World σ} (made : Made settings w w' entry)
      (makes : Makes settings w c entry) :
    Event settings w (.call c) w'
  /-- What waited was paid, or there was nothing to pay. -/
  | advanced {place : Nat} {receiver : Owner} {entry : Entry} {w' : World σ}
      (waiting : w.pending[place]? = some receiver)
      (made : Made settings { w with pending := w.pending.eraseIdx place } w' entry)
      (done : (∃ p, entry = .paid p ∧ p.receiver = receiver) ∨ entry = .nothing ∧
        (failing w.store = [] → (contents w.store).Linked →
          ¬ (contents w.store).Payable receiver)) :
    Event settings w (.background place) w'
  | idle {place : Nat} (h : w.pending[place]? = none) : Event settings w (.background place) w
  | surrounded {e : Surroundings} : Event settings w (.surround e) (w.surround e)

section Runs

variable {σ : Type} [Store σ] [LawfulStore σ] {settings : Settings} {w : World σ}

/-- **What one act does.** -/
theorem act_event (settings : Settings) (hw : w.Good) (a : Act) :
    Event settings w a (w.act settings a) := by
  cases a with
  | call c =>
    obtain ⟨entry, hmakes, hmade⟩ := call_made hw c
    exact .called hmade hmakes
  | background place =>
    show Event settings w _ (w.background settings place)
    unfold World.background
    split
    · rename_i receiver hwaiting
      -- who is taken out of the queue is not in the queue while being paid
      have hw' : World.Good { w with pending := w.pending.eraseIdx place } := ⟨hw.sound, hw.quiet⟩
      rcases advanceReferral_made settings hw' receiver with ⟨p, hp, hmade⟩ | ⟨hmade, hdone⟩
      · exact .advanced hwaiting hmade (.inl ⟨p, rfl, hp⟩)
      · exact .advanced hwaiting hmade (.inr ⟨rfl, hdone⟩)
    · rename_i hidle
      exact .idle hidle
  | surround e => exact .surrounded

/-- An act keeps a world good. -/
theorem Event.good (hw : w.Good) {a : Act} {w' : World σ} (h : Event settings w a w') :
    w'.Good := by
  cases h with
  | called made _ => exact made.good
  | advanced _ made _ => exact made.good
  | idle _ => exact hw
  | surrounded => exact ⟨LawfulStore.sound_failOn _ hw.sound, hw.quiet⟩

namespace World

theorem good_start (clock : Timestamp) : (start clock : World σ).Good :=
  ⟨LawfulStore.sound_empty, rfl⟩

theorem contents_start (clock : Timestamp) : contents (start clock : World σ).store = .empty :=
  LawfulStore.contents_empty

/-- The books before the first act. -/
theorem books_start (clock : Timestamp) :
    (start clock : World σ).books = ⟨.empty, [], [], [], [], []⟩ := by
  unfold books start
  rw [LawfulStore.contents_empty, LawfulStore.failing_empty]

/-- Nothing fails in surroundings where nothing is made to. -/
theorem failing_surround {e : Surroundings} (h : e.failing = []) (w : World σ) :
    failing (w.surround e).store = [] := by
  refine List.eq_nil_iff_forall_not_mem.2 fun op hop => ?_
  have hasked := LawfulStore.failing_failOn e.failing w.store hop
  rw [h] at hasked
  cases hasked

/-- A store that does not fail goes on so through an act by which it does not. -/
theorem failing_act (settings : Settings) (hw : w.Good) {a : Act} (ha : a.Safe)
    (hsafe : failing w.store = []) : failing (w.act settings a).store = [] := by
  have hevent := act_event settings hw a
  generalize w.act settings a = w' at hevent ⊢
  cases hevent with
  | called made _ => exact made.step.failing_eq.trans hsafe
  | advanced _ made _ => exact made.step.failing_eq.trans hsafe
  | idle _ => exact hsafe
  | surrounded => exact failing_surround ha w

theorem good_run (settings : Settings) (hw : w.Good) (acts : List Act) :
    (w.run settings acts).Good := by
  induction acts using List.reverseRecOn with
  | nil => exact hw
  | append_singleton acts a ih =>
    rw [run_concat]
    exact (act_event settings ih a).good ih

/-- A store never fails in a run by whose acts it does not. -/
theorem failing_run (settings : Settings) (hw : w.Good) (hsafe : failing w.store = [])
    (acts : List Act) (hacts : ∀ a ∈ acts, a.Safe) :
    failing (w.run settings acts).store = [] := by
  induction acts using List.reverseRecOn with
  | nil => exact hsafe
  | append_singleton acts a ih =>
    rw [run_concat]
    exact failing_act settings (good_run settings hw acts) (hacts a (by simp))
      (ih fun a' ha' => hacts a' (List.mem_append_left _ ha'))

/-- **What every entry keeps, a run keeps**, as long as it does not matter who waits and
what fails. -/
theorem books_run {P : Books → Prop} (hw : w.Good) (hstart : P w.books)
    (hrest : ∀ b pending failing, P b → P { b with pending, failing })
    (hstep : ∀ now b entry b', P b → Step settings now b entry b' → P b') (acts : List Act) :
    P (w.run settings acts).books := by
  induction acts using List.reverseRecOn with
  | nil => exact hstart
  | append_singleton acts a ih =>
    rw [run_concat]
    have hgood := good_run settings hw acts
    generalize w.run settings acts = v at ih hgood ⊢
    have hevent := act_event settings hgood a
    generalize v.act settings a = v' at hevent ⊢
    cases hevent with
    | called made _ => exact hstep _ _ _ _ ih made.step
    | advanced _ made _ => exact hstep _ _ _ _ (hrest v.books _ v.books.failing ih) made.step
    | idle _ => exact ih
    | @surrounded e =>
      have hcontents := LawfulStore.contents_failOn e.failing v.store
      unfold books surround
      rw [hcontents]
      exact hrest v.books v.pending _ ih

end World

end Runs

end Onboarding
