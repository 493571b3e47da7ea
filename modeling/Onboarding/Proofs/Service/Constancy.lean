import Onboarding.Proofs.Service.Wallets
/-!
# Constancy — what a registration keeps, and the code that was mailed

A stored registration is written over as a whole: when it is renewed, when an inviter is
given to it, and when it is confirmed. `Registration.Move` lists what each of these does
to it, and `Step.move` says that the entries do nothing else. What a move keeps, every
run keeps (`develops_run`). So the code of a verification mail is the stored one ever
after, and a confirmation with it is never told that there is no such code.
-/

namespace Onboarding

open StoreView

/-! ## Moves -/

/-- The registration that an entry mails the code of. -/
def Entry.mailed? : Entry → Option Registration
  | enrolled r | renewed r => some r
  | _ => none

namespace Registration

/-- What an entry may make of a registration that was stored before. -/
inductive Move (now : Timestamp) (r : Registration) : Entry → Registration → Prop
  | stays {entry : Entry} : Move now r entry r
  | renewed {code? : Option String} (fresh : r.confirmedAt = none)
      (first : code? = none ∨ r.referralCode = none) :
    Move now r (.renewed { r with referralCode := code?.or r.referralCode, createdAt := now })
      { r with referralCode := code?.or r.referralCode, createdAt := now }
  | tracked {code : String} (fresh : r.confirmedAt = none) (first : r.referralCode = none) :
    Move now r (.tracked { r with referralCode := some code })
      { r with referralCode := some code }
  | confirmed (fresh : r.confirmedAt = none) :
    Move now r (.confirmed r) { r with confirmedAt := some now }

/-- A registration as it may be stored later: what its owner chose and what was drawn for
it are the same, and nothing that was set once is set again. -/
structure Develops (r r' : Registration) : Prop where
  owner_eq : r'.owner = r.owner
  email_eq : r'.email = r.email
  address_eq : r'.address = r.address
  code_eq : r'.code = r.code
  ownReferralCode_eq : r'.ownReferralCode = r.ownReferralCode
  confirmedAt_eq : ∀ t, r.confirmedAt = some t → r'.confirmedAt = some t
  referralCode_eq : ∀ code, r.referralCode = some code → r'.referralCode = some code
  createdAt_eq : r.isConfirmed = true → r'.createdAt = r.createdAt

namespace Develops

theorem refl (r : Registration) : r.Develops r :=
  ⟨rfl, rfl, rfl, rfl, rfl, fun _ h => h, fun _ h => h, fun _ => rfl⟩

theorem trans {p q r : Registration} (hpq : p.Develops q) (hqr : q.Develops r) :
    p.Develops r where
  owner_eq := hqr.owner_eq.trans hpq.owner_eq
  email_eq := hqr.email_eq.trans hpq.email_eq
  address_eq := hqr.address_eq.trans hpq.address_eq
  code_eq := hqr.code_eq.trans hpq.code_eq
  ownReferralCode_eq := hqr.ownReferralCode_eq.trans hpq.ownReferralCode_eq
  confirmedAt_eq t h := hqr.confirmedAt_eq t (hpq.confirmedAt_eq t h)
  referralCode_eq code h := hqr.referralCode_eq code (hpq.referralCode_eq code h)
  createdAt_eq h := by
    -- what is confirmed in `p` is still so in `q`
    obtain ⟨t, ht⟩ := Option.isSome_iff_exists.1 h
    have hq : q.isConfirmed = true := by rw [isConfirmed, hpq.confirmedAt_eq t ht]; rfl
    exact (hqr.createdAt_eq hq).trans (hpq.createdAt_eq h)

end Develops

namespace Move

variable {now : Timestamp} {r r' : Registration} {entry : Entry}

theorem owner_eq (h : r.Move now entry r') : r'.owner = r.owner := by
  cases h <;> rfl

/-- **A move keeps** whatever is to be kept. -/
theorem develops (h : r.Move now entry r') : r.Develops r' := by
  -- a registration is written over only while it is not confirmed
  have hopen : r.confirmedAt = none → r.isConfirmed = true → False := by
    intro hfresh hconfirmed
    rw [isConfirmed, hfresh] at hconfirmed
    cases hconfirmed
  cases h with
  | stays => exact .refl r
  | @renewed code? fresh first =>
    refine ⟨rfl, rfl, rfl, rfl, rfl, fun _ h => h, fun code hcode => ?_,
      fun h => (hopen fresh h).elim⟩
    rcases first with rfl | hnone
    · exact hcode
    · rw [hnone] at hcode
      cases hcode
  | tracked fresh first =>
    refine ⟨rfl, rfl, rfl, rfl, rfl, fun _ h => h, fun code hcode => ?_, fun _ => rfl⟩
    rw [first] at hcode
    cases hcode
  | confirmed fresh =>
    refine ⟨rfl, rfl, rfl, rfl, rfl, fun t ht => ?_, fun _ h => h, fun _ => rfl⟩
    rw [fresh] at ht
    cases ht

/-- **Only a renewal moves the time**, and to its own. -/
theorem of_createdAt_ne (h : r.Move now entry r') (hne : r'.createdAt ≠ r.createdAt) :
    r.confirmedAt = none ∧ r'.createdAt = now ∧ entry.mailed? = some r' := by
  cases h with
  | stays | tracked _ _ | confirmed _ => exact absurd rfl hne
  | renewed fresh _ => exact ⟨fresh, rfl, rfl⟩

end Move

end Registration

namespace Contents

variable {c : Contents} {now : Timestamp} {entry : Entry} {o : Owner} {q r : Registration}

/-- A stored registration is still there, or what a move made of it. -/
def Moves (c' : Contents) (now : Timestamp) (entry : Entry) (o : Owner) (r : Registration) :
    Prop :=
  ∃ r', c'.registration o = some r' ∧ r.Move now entry r'

theorem moves_put_of_absent (hr : c.registration o = some r)
    (habsent : c.registration q.owner = none) : (c.put q).Moves now entry o r :=
  ⟨r, registration_put_of_absent hr habsent, .stays⟩

theorem moves_put_of_held {q' : Registration} (hr : c.registration o = some r)
    (hq : c.Holds q) (hmove : q.Move now entry q') : (c.put q').Moves now entry o r := by
  rcases registration_put_of_held hr hq hmove.owner_eq with ⟨rfl, hr'⟩ | hr'
  · exact ⟨q', hr', hmove⟩
  · exact ⟨r, hr', .stays⟩

/-- Inviting someone moves no registration. -/
theorem Moves.invite (h : c.Moves now entry o r) (receiver : Owner) (time : Timestamp)
    (sender? : Option Owner) : (c.invite receiver time sender?).Moves now entry o r := by
  unfold Moves
  rw [registration_invite]
  exact h

end Contents

namespace Step

variable {settings : Settings} {now : Timestamp} {b b' : Books} {entry : Entry}

/-- **A stored registration moves in these ways only.** -/
theorem move (h : Step settings now b entry b') {o : Owner} {r : Registration}
    (hr : b.contents.registration o = some r) : b'.contents.Moves now entry o r := by
  cases h with
  | nothing | stakeRefused _ _ | stakeLost _ _ _ | grantRefused _ _ _ | grantLost _ _ _
  | installed _ _ _ | paid _ _ _ _ _ _ _ _ => exact ⟨r, hr, .stays⟩
  | enrolled _ _ _ absent _ _ _ _ => exact (Contents.moves_put_of_absent hr absent).invite _ _ _
  | renewed held fresh _ first _ =>
    exact (Contents.moves_put_of_held hr held (.renewed fresh first)).invite _ _ _
  | tracked held fresh first _ =>
    exact (Contents.moves_put_of_held hr held (.tracked fresh first)).invite _ _ _
  | confirmed held fresh => exact Contents.moves_put_of_held hr held (.confirmed fresh)
  | granted _ _ _ _ _ absent _ _ _ => exact Contents.moves_put_of_absent hr absent

/-- Whoever still has to confirm is registered under an email. -/
theorem named (h : Step settings now b entry b')
    (hb : ∀ r, b.contents.Holds r → r.confirmedAt = none → r.owner = .ofEmail r.email)
    {r : Registration} (hr : b'.contents.Holds r) (hfresh : r.confirmedAt = none) :
    r.owner = .ofEmail r.email := by
  cases h with
  | nothing | stakeRefused _ _ | stakeLost _ _ _ | grantRefused _ _ _ | grantLost _ _ _
  | installed _ _ _ | paid _ _ _ _ _ _ _ _ => exact hb r hr hfresh
  | enrolled owner_eq _ _ _ _ _ _ _ =>
    rw [Contents.Holds, Contents.registration_invite] at hr
    rcases Contents.holds_put.1 hr with rfl | ⟨-, hold⟩
    · exact owner_eq
    · exact hb r hold hfresh
  | renewed held fresh _ _ _ | tracked held fresh _ _ =>
    rw [Contents.Holds, Contents.registration_invite] at hr
    rcases Contents.holds_put.1 hr with rfl | ⟨-, hold⟩
    · have howner := hb _ held fresh
      exact howner
    · exact hb r hold hfresh
  | confirmed _ _ =>
    rcases Contents.holds_put.1 hr with rfl | ⟨-, hold⟩
    · cases hfresh
    · exact hb r hold hfresh
  | granted _ _ _ confirmed _ _ _ _ _ =>
    rcases Contents.holds_put.1 hr with rfl | ⟨-, hold⟩
    · cases confirmed.symm.trans hfresh
    · exact hb r hold hfresh

/-- **A verification mail carries what is stored** right after the entry that sends it. -/
theorem outbox (h : Step settings now b entry b') :
    ∃ mails, b'.outbox = b.outbox ++ mails ∧
      ∀ email code, .verification email code ∈ mails → ∃ r, entry.mailed? = some r ∧
        b'.contents.registration r.owner = some r ∧ r.email = email ∧ r.code = code := by
  -- whatever else is sent is no verification mail
  have hnone : ∃ mails, b.outbox = b.outbox ++ mails ∧
      ∀ email code, .verification email code ∈ mails → ∃ r, entry.mailed? = some r ∧
        b'.contents.registration r.owner = some r ∧ r.email = email ∧ r.code = code :=
    ⟨[], (List.append_nil _).symm, nofun⟩
  cases h with
  | nothing | tracked _ _ _ _ | stakeRefused _ _ | stakeLost _ _ _ | installed _ _ _
  | paid _ _ _ _ _ _ _ _ | grantRefused _ _ _ | grantLost _ _ _
  | granted _ _ _ _ _ _ _ _ _ => exact hnone
  | confirmed _ _ =>
    refine ⟨_, rfl, fun email code hmail => ?_⟩
    rw [List.mem_singleton] at hmail
    cases hmail
  | enrolled _ _ _ _ _ _ _ _ | renewed _ _ _ _ _ =>
    refine ⟨_, rfl, fun email code hmail => ?_⟩
    rw [List.mem_singleton] at hmail
    cases hmail
    refine ⟨_, rfl, ?_, rfl, rfl⟩
    rw [Contents.registration_invite]
    exact Contents.registration_put_self _ _

end Step

/-! ## Acts -/

section Acts

variable {σ : Type} [Store σ] [LawfulStore σ] {settings : Settings} {w : World σ}

/-- An act that registers an owner and succeeds. -/
def World.Registers (settings : Settings) (w : World σ) (a : Act) (owner : Owner) : Prop :=
  ∃ email address code?, a = .call (.register email address code?) ∧
    (register settings email.1 address (code?.map (·.1)) w).1 = .ok owner

/-- No call but a registration makes an entry that mails a code. -/
theorem Makes.mailed?_eq_none {c : Call} {entry : Entry} (h : Makes settings w c entry)
    (hc : ∀ email address code?, c ≠ .register email address code?) : entry.mailed? = none := by
  cases h with
  | nothing | tracked | installed | paid => rfl
  | enrolled _ | renewed _ => exact absurd rfl (hc _ _ _)
  | @confirming owner code _ answer =>
    generalize (confirm settings owner code w).1 = x at answer
    cases answer <;> rfl
  | @granting address _ answer =>
    generalize (grantTestnetStake settings address w).1 = x at answer
    cases answer <;> rfl

/-- **A code is mailed by a registration that succeeds**, and by no other call. -/
theorem call_registers (hw : w.Good) (c : Call) :
    ∃ entry, Made settings w (c.after settings w) entry ∧
      ∀ r, entry.mailed? = some r → w.Registers settings (.call c) r.owner := by
  by_cases hc : ∃ email address code?, c = .register email address code?
  · obtain ⟨email, address, code?, rfl⟩ := hc
    rcases register_made hw email.2 fun _ => BoundedText.byteLength_of_map with
      ⟨r, entry, hentry, -, hok, hmade⟩ | ⟨-, hmade⟩
    · refine ⟨entry, hmade, fun q hq => ⟨email, address, code?, rfl, ?_⟩⟩
      rcases hentry with ⟨rfl, -⟩ | rfl <;> cases hq <;> exact hok
    · exact ⟨.nothing, hmade, nofun⟩
  · obtain ⟨entry, hmakes, hmade⟩ := call_made hw c
    refine ⟨entry, hmade, fun r hr => ?_⟩
    rw [hmakes.mailed?_eq_none fun email address code? h => hc ⟨email, address, code?, h⟩] at hr
    cases hr

/-- An act makes one entry, in books that show what the store holds and what was sent; it
mails a code only by registering the owner. -/
theorem act_registers (settings : Settings) (hw : w.Good) (a : Act) :
    ∃ b entry, b.contents = contents w.store ∧ b.outbox = w.outbox ∧
      Step settings w.clock b entry (w.act settings a).books ∧
      ∀ r, entry.mailed? = some r → w.Registers settings a r.owner := by
  cases a with
  | call c =>
    obtain ⟨entry, hmade, hregisters⟩ := call_registers hw c
    exact ⟨w.books, entry, rfl, rfl, hmade.step, hregisters⟩
  | background place =>
    have hevent := act_event settings hw (.background place)
    generalize w.act settings (.background place) = w' at hevent ⊢
    cases hevent with
    | advanced _ made done =>
      refine ⟨_, _, rfl, rfl, made.step, fun r hr => ?_⟩
      rcases done with ⟨p, rfl, -⟩ | ⟨rfl, -⟩ <;> cases hr
    | idle _ => exact ⟨w.books, .nothing, rfl, rfl, .nothing, nofun⟩
  | surround e =>
    exact ⟨(w.surround e).books, .nothing, LawfulStore.contents_failOn e.failing w.store, rfl,
      .nothing, nofun⟩

/-- **What is registered stays so** through a run, and only what is open changes. -/
theorem World.develops_run (settings : Settings) (hw : w.Good) {o : Owner} {r : Registration}
    (hr : (contents w.store).registration o = some r) (acts : List Act) :
    ∃ r', (contents (w.run settings acts).store).registration o = some r' ∧ r.Develops r' := by
  refine World.books_run
    (P := fun b => ∃ r', b.contents.registration o = some r' ∧ r.Develops r') hw
    ⟨r, hr, .refl r⟩ (fun _ _ _ hb => hb) ?_ acts
  rintro now b entry b' ⟨q, hq, hdevelops⟩ hstep
  obtain ⟨q', hq', hmove⟩ := hstep.move hq
  exact ⟨q', hq', hdevelops.trans hmove.develops⟩

end Acts

/-! ## Confirmations -/

/-- A code matches itself. -/
theorem codesMatch_self (code : String) : codesMatch code code = true := by
  have hzeros : ∀ n, (List.replicate n (0 : UInt8)).foldl (· ||| ·) 0 = 0 := by
    intro n
    induction n with
    | zero => rfl
    | succ n ih => simpa [List.replicate_succ] using ih
  simp [codesMatch, hzeros]

namespace Confirmation

variable {σ : Type} {w : World σ} {o : Owner} {r : Registration}

/-- Whoever is registered and submits the stored code is found. -/
theorem check_ne_notFound [Store σ] [LawfulStore σ] (hw : w.Good)
    (hr : (contents w.store).registration o = some r) :
    (check o r.code w).1 ≠ .error .notFound := by
  unfold check
  have hsearch := LawfulStore.registration o hw.sound
  rcases ServiceM.find_cases (Store.registration · o) w with
    ⟨found, hfound, hfind⟩ | ⟨e, -, hfind⟩
  swap
  · rw [Computation.bind_of_error hfind]
    exact nofun
  rw [Computation.bind_of_ok hfind]
  cases found with
  | none => exact absurd hr (hsearch.of_missing hfound r)
  | some q =>
    have hq := hsearch.of_found (found?_eq_some hfound)
    have hqr : q = r := Option.some.inj (hq.symm.trans hr)
    subst hqr
    simp only [codesMatch_self, Bool.not_true, Bool.false_eq_true, if_false]
    split <;> exact nofun

/-- The chain has another error of its own. -/
theorem grantStake_ne_notFound (settings : Settings) :
    (grantStake settings o r w).1 ≠ .error .notFound := by
  unfold grantStake ServiceM.pay
  split <;> exact nofun

/-- What could not be stored is not told as a missing code. -/
theorem record_ne_notFound [Store σ] : (record o w).1 ≠ .error .notFound := by
  unfold record
  rw [Computation.bind_of_ok (ServiceM.now_apply w), Computation.bind_apply]
  have hok : ∃ result, (ServiceM.write (Store.confirmRegistration o w.clock) w).1 = .ok result :=
    ⟨_, rfl⟩
  rcases hwrite : ServiceM.write (Store.confirmRegistration o w.clock) w with ⟨x, w'⟩
  rw [hwrite] at hok
  obtain ⟨result, rfl⟩ := hok
  dsimp only
  split <;> exact nofun

end Confirmation

/-- **The stored code is never told to be unknown.** -/
theorem confirm_ne_notFound {σ : Type} [Store σ] [LawfulStore σ] {w : World σ} (hw : w.Good)
    (settings : Settings) {o : Owner} {r : Registration}
    (hr : (contents w.store).registration o = some r) :
    (confirm settings o r.code w).1 ≠ .error .notFound := by
  unfold confirm
  refine Computation.bind_ne_error (Confirmation.check_ne_notFound hw hr) fun q w₁ => ?_
  refine Computation.bind_ne_error (Confirmation.grantStake_ne_notFound settings) fun _ w₂ => ?_
  refine Computation.bind_ne_error Confirmation.record_ne_notFound fun _ w₃ => ?_
  exact nofun

/-! ## Whole runs -/

/-- An owner is registered with an email and a code, and is not told that there is no
such code. -/
def World.Knows {σ : Type} [Store σ] [StoreView σ] (settings : Settings) (w : World σ)
    (o : Owner) (email code : String) : Prop :=
  (∃ r, (contents w.store).registration o = some r ∧ r.email = email ∧ r.code = code) ∧
    (confirm settings o code w).1 ≠ .error .notFound

/-- What a world keeps of its registrations, whatever comes after it. -/
structure World.Constant {σ : Type} [Store σ] [LawfulStore σ] (settings : Settings)
    (w : World σ) : Prop where
  /-- Whoever is registered is so in every later state, and only what is open changes. -/
  kept : ∀ o r, (contents w.store).registration o = some r → ∀ acts,
    ∃ r', (contents (w.run settings acts).store).registration o = some r' ∧ r.Develops r'
  /-- The time of a registration changes only while it is not confirmed, and only to the
  reading of the clock at a registration of its owner that succeeds. -/
  renewed : ∀ a o r r', (contents w.store).registration o = some r →
    (contents (w.act settings a).store).registration o = some r' → r'.createdAt ≠ r.createdAt →
    r.confirmedAt = none ∧ r'.createdAt = w.clock ∧ w.Registers settings a o
  /-- Mails are only added. A verification mail goes to an owner who registers, and what it
  carries is known in every later state. -/
  mailed : ∀ a, ∃ mails, (w.act settings a).outbox = w.outbox ++ mails ∧
    ∀ email code, .verification email code ∈ mails → ∃ o, w.Registers settings a o ∧
      ∀ acts, (w.act settings a).run settings acts |>.Knows settings o email code

section Runs

variable {σ : Type} [Store σ] [LawfulStore σ] {settings : Settings} {w : World σ}

/-- What is stored is known ever after. -/
theorem World.knows_run (hw : w.Good) {o : Owner} {r : Registration}
    (hr : (contents w.store).registration o = some r) (acts : List Act) :
    (w.run settings acts).Knows settings o r.email r.code := by
  obtain ⟨r', hr', hdevelops⟩ := World.develops_run settings hw hr acts
  have hfound := confirm_ne_notFound (World.good_run settings hw acts) settings hr'
  rw [hdevelops.code_eq] at hfound
  exact ⟨⟨r', hr', hdevelops.email_eq, hdevelops.code_eq⟩, hfound⟩

theorem World.Good.constant (hw : w.Good) : w.Constant settings where
  kept _ _ hr := World.develops_run settings hw hr
  renewed a o r r' hr hr' hne := by
    obtain ⟨b, entry, hcontents, -, hstep, hregisters⟩ := act_registers settings hw a
    rw [← hcontents] at hr
    obtain ⟨q, hq, hmove⟩ := hstep.move hr
    have hqr : q = r' := Option.some.inj (hq.symm.trans hr')
    subst hqr
    obtain ⟨hfresh, htime, hmailed⟩ := hmove.of_createdAt_ne hne
    have howner : q.owner = o := by
      rw [hmove.owner_eq]
      rw [hcontents] at hr
      exact (LawfulStore.coherent hw.sound).owner_eq hr
    exact ⟨hfresh, htime, howner ▸ hregisters q hmailed⟩
  mailed a := by
    obtain ⟨b, entry, -, houtbox, hstep, hregisters⟩ := act_registers settings hw a
    obtain ⟨mails, hmails, hverification⟩ := hstep.outbox
    rw [houtbox] at hmails
    refine ⟨mails, hmails, fun email code hmail => ?_⟩
    obtain ⟨r, hr, hstored, rfl, rfl⟩ := hverification email code hmail
    exact ⟨r.owner, hregisters r hr, World.knows_run ((act_event settings hw a).good hw) hstored⟩

end Runs

/-- **A registration changes as it may and no further**, and the code that was mailed stays
valid, in every run on every store. -/
theorem constant_run (kind : StoreKind) (settings : Settings) (clock : Timestamp)
    (acts : List Act) :
    ((World.start clock : World kind.State).run settings acts).Constant settings :=
  (World.good_run settings (World.good_start clock) acts).constant

end Onboarding
