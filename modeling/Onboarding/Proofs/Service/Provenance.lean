import Onboarding.Proofs.Service.Race
import Onboarding.Proofs.Text.Utf8
/-!
# Provenance — no stake without a mailed code

A stake is transferred, tried or lost only by a confirmation that submits the code of the
registration (`Entry.Stakes`), and the codes of registrations that are open were mailed to
whom they are registered for (`Books.Mailed`). The comparison of codes goes through all the
bytes and accepts equal ones only (`codesMatch_iff`), so that what is submitted is what was
mailed.
-/

namespace Onboarding

open StoreView

/-! ## Comparing codes -/

/-- The bits of all bytes together are none if and only if each byte is zero. -/
theorem foldl_or_eq_zero {bs : List UInt8} {b : UInt8} :
    bs.foldl (· ||| ·) b = 0 ↔ b = 0 ∧ ∀ b' ∈ bs, b' = 0 := by
  induction bs generalizing b with
  | nil => simp
  | cons b' bs ih => simp [ih, UInt8.or_eq_zero_iff, and_assoc]

/-- Bytes that differ nowhere are the same. -/
theorem zipWith_xor_eq_zero {bs bs' : List UInt8} (hlength : bs.length = bs'.length) :
    (∀ b ∈ List.zipWith (· ^^^ ·) bs bs', b = 0) ↔ bs = bs' := by
  induction bs generalizing bs' with
  | nil => cases bs' <;> simp at hlength ⊢
  | cons b bs ih =>
    cases bs' with
    | nil => cases hlength
    | cons b' bs' => simp [ih (Nat.succ.inj hlength)]

/-- **Codes match if and only if they are the same.** -/
theorem codesMatch_iff {stored submitted : String} :
    codesMatch stored submitted = true ↔ stored = submitted := by
  rw [← Utf8.bytes_inj]
  unfold codesMatch
  dsimp only
  split
  · rename_i hlength
    exact iff_of_false Bool.false_ne_true fun h => hlength (congrArg _ h)
  · rename_i hlength
    rw [beq_iff_eq, foldl_or_eq_zero, and_iff_right rfl, zipWith_xor_eq_zero (not_not.1 hlength)]

/-! ## What is mailed -/

/-- The code of whoever has still to confirm was mailed to them. -/
def Books.Mailed (b : Books) : Prop :=
  ∀ r, b.contents.Holds r → r.confirmedAt = none → .verification r.email r.code ∈ b.outbox

/-- The registrations after an invitation are those before it. -/
theorem Contents.holds_invite {c : Contents} {receiver : Owner} {now : Timestamp}
    {sender? : Option Owner} {r : Registration} :
    (c.invite receiver now sender?).Holds r ↔ c.Holds r := by
  rw [Holds, Holds, registration_invite]

namespace Step

variable {settings : Settings} {now : Timestamp} {b b' : Books} {entry : Entry}
  {r : Registration} {o : Owner}

/-- No mail is taken back. -/
theorem outbox_subset (h : Step settings now b entry b') : b.outbox ⊆ b'.outbox := by
  cases h <;> first | exact fun _ hm => hm | exact List.subset_append_left _ _

/-- **Every entry that stores a code mails it**, or it was mailed before. -/
theorem mailed (h : Step settings now b entry b') (hb : b.Mailed) : b'.Mailed := by
  -- what an entry does not store was mailed before
  have hkept : ∀ {q}, b.contents.Holds q → q.confirmedAt = none →
      .verification q.email q.code ∈ b'.outbox :=
    fun hq hfresh => h.outbox_subset (hb _ hq hfresh)
  intro q hq hfresh
  cases h with
  | nothing | stakeRefused _ _ | stakeLost _ _ _ | grantRefused _ _ _ | grantLost _ _ _
  | installed _ _ _ | paid _ _ _ _ _ _ _ _ => exact hkept hq hfresh
  | enrolled _ _ _ _ _ _ _ _ | renewed _ _ _ _ _ =>
    rcases Contents.holds_put.1 (Contents.holds_invite.1 hq) with rfl | ⟨-, hold⟩
    · simp
    · exact hkept hold hfresh
  | tracked held fresh _ _ =>
    rcases Contents.holds_put.1 (Contents.holds_invite.1 hq) with rfl | ⟨-, hold⟩
    · have hmail := hkept held fresh
      exact hmail
    · exact hkept hold hfresh
  | confirmed _ _ =>
    rcases Contents.holds_put.1 hq with rfl | ⟨-, hold⟩
    · cases hfresh
    · exact hkept hold hfresh
  | granted _ _ _ confirmed _ _ _ _ _ =>
    rcases Contents.holds_put.1 hq with rfl | ⟨-, hold⟩
    · cases confirmed.symm.trans hfresh
    · exact hkept hold hfresh

end Step

/-! ## What is staked -/

/-- An entry of a confirmation that found the registration `r` and tried its stake. -/
inductive Entry.Stakes (r : Registration) : Entry → Prop
  | confirmed : Stakes r (.confirmed r)
  | refused : Stakes r (.stakeRefused r)
  | lost : Stakes r (.stakeLost r)

/-- No reward has the memo of a stake. -/
theorem Payout.memo_ne_stakeMemo {p : Payout} {t : Transfer} (h : t ∈ p.transfers) (o : Owner) :
    t.memo ≠ Confirmation.stakeMemo o := by
  obtain ⟨side, rfl⟩ := Payout.eq_transfer h
  rw [Side.memo_transfer]
  exact (side.stakeMemo_ne _ o).symm

namespace Step

variable {settings : Settings} {now : Timestamp} {b b' : Books} {entry : Entry}
  {r : Registration} {o : Owner}

/-- Whoever is staked is registered and has still to confirm. -/
theorem held_of_stakes (h : Step settings now b entry b') (hs : entry.Stakes r) :
    b.contents.Holds r ∧ r.confirmedAt = none := by
  cases hs with
  | confirmed => exact h.held_of_confirmed
  | refused => cases h with | stakeRefused held fresh => exact ⟨held, fresh⟩
  | lost => cases h with | stakeLost held fresh _ => exact ⟨held, fresh⟩

/-- Wallets of the faucet are confirmed without an email. -/
theorem silent_of_granted (h : Step settings now b (.granted r) b') : r.email = "" := by
  cases h with
  | granted _ _ silent _ _ _ _ _ _ => exact silent

/-- A stake that an entry transfers is that of whom it stakes. -/
theorem stakes_of_sends {t : Transfer} (ht : entry.Sends settings t)
    (hmemo : t.memo = Confirmation.stakeMemo o) : ∃ r, entry.Stakes r ∧ r.owner = o := by
  cases ht with
  | stake => exact ⟨_, .confirmed, Confirmation.stakeMemo_inj.1 hmemo⟩
  | lostStake => exact ⟨_, .lost, Confirmation.stakeMemo_inj.1 hmemo⟩
  | reward side =>
    rw [Side.memo_transfer] at hmemo
    exact absurd hmemo.symm (side.stakeMemo_ne _ o)
  | grant | lostGrant =>
    rw [Faucet.grant, Purpose.stakeMemo_eq, Purpose.faucetMemo_eq, Purpose.memo_inj] at hmemo
    cases hmemo.1

/-- **What an entry tries in vain** goes behind what was refused before, and a stake among
it is that of whom the entry stakes. -/
theorem refuses (h : Step settings now b entry b') :
    ∃ refused, b'.refusals = b.refusals ++ refused ∧ ∀ t ∈ refused, ∀ o,
      t.memo = Confirmation.stakeMemo o → ∃ r, entry.Stakes r ∧ r.owner = o := by
  cases h with
  | nothing | enrolled _ _ _ _ _ _ _ _ | renewed _ _ _ _ _ | tracked _ _ _ _ | stakeLost _ _ _
  | confirmed _ _ | installed _ _ _ | grantLost _ _ _ | granted _ _ _ _ _ _ _ _ _ =>
    exact ⟨[], (List.append_nil _).symm, nofun⟩
  | stakeRefused _ _ =>
    refine ⟨_, rfl, fun t ht o hmemo => ⟨_, .refused, ?_⟩⟩
    rw [List.mem_singleton.1 ht] at hmemo
    exact Confirmation.stakeMemo_inj.1 hmemo
  | grantRefused _ _ _ =>
    refine ⟨_, rfl, fun t ht o hmemo => ?_⟩
    rw [List.mem_singleton.1 ht, Faucet.grant, Purpose.stakeMemo_eq, Purpose.faucetMemo_eq,
      Purpose.memo_inj] at hmemo
    cases hmemo.1
  | paid _ _ _ _ _ _ _ sent =>
    exact ⟨_, rfl, fun t ht o hmemo =>
      absurd hmemo (Payout.memo_ne_stakeMemo (sent.refused_subset ht) o)⟩

end Step

/-! ## Whole runs -/

section Runs

variable {σ : Type} [Store σ] [LawfulStore σ] {settings : Settings} {w w' : World σ} {a : Act}

/-- Only a confirmation stakes, and it submits the code of whom it stakes. -/
theorem Makes.eq_confirm {c : Call} {entry : Entry} {r : Registration}
    (h : Makes settings w c entry) (hs : entry.Stakes r) : c = .confirm r.owner r.code := by
  cases h with
  | @confirming owner code _ answer =>
    generalize (confirm settings owner code w).1 = x at answer
    cases answer with
    | done howner hcode | refused howner hcode | lost howner hcode =>
      cases hs
      rw [howner, codesMatch_iff.1 hcode]
    | failed => cases hs
  | @granting address _ answer =>
    generalize (grantTestnetStake settings address w).1 = x at answer
    cases answer <;> cases hs
  | _ => cases hs

/-- The act confirms an owner who is registered and has still to confirm, with a code that
was mailed to the email of the registration. -/
def World.Submits (w : World σ) (a : Act) (o : Owner) : Prop :=
  ∃ code r, a = .call (.confirm o code) ∧ (contents w.store).registration o = some r ∧
    r.confirmedAt = none ∧ .verification r.email code ∈ w.outbox

/-- What an act stakes, tries to stake and confirms is what it submits a mailed code for. -/
structure World.Backed (settings : Settings) (w : World σ) (a : Act) : Prop where
  transfers : ∃ sent, (w.act settings a).ledger.transfers = w.ledger.transfers ++ sent ∧
    ∀ t ∈ sent, ∀ o, t.memo = Confirmation.stakeMemo o → w.Submits a o
  refusals : ∃ refused, (w.act settings a).ledger.refusals = w.ledger.refusals ++ refused ∧
    ∀ t ∈ refused, ∀ o, t.memo = Confirmation.stakeMemo o → w.Submits a o
  confirmed : ∀ o r, (contents (w.act settings a).store).registration o = some r →
    r.isConfirmed = true → r.email ≠ "" →
      (contents w.store).confirms o = true ∨ w.Submits a o

/-- Whoever is staked by a call submitted a mailed code with it. -/
theorem Makes.submits {c : Call} {entry : Entry} {r : Registration} {now : Timestamp} {b' : Books}
    (h : Makes settings w c entry) (hstep : Step settings now w.books entry b')
    (hmailed : w.books.Mailed) (hs : entry.Stakes r) : w.Submits (.call c) r.owner := by
  obtain ⟨held, fresh⟩ := hstep.held_of_stakes hs
  exact ⟨r.code, r, congrArg _ (h.eq_confirm hs), held, fresh, hmailed r held fresh⟩

/-- An act whose entry is made in these books is backed, if whom the entry stakes submits. -/
theorem World.Backed.of_step {entry : Entry} {now : Timestamp} {b : Books}
    (h : Step settings now b entry (w.act settings a).books)
    (hcontents : b.contents = contents w.store) (htransfers : b.transfers = w.ledger.transfers)
    (hrefusals : b.refusals = w.ledger.refusals)
    (hsubmits : ∀ r, entry.Stakes r → w.Submits a r.owner) : w.Backed settings a where
  transfers := by
    obtain ⟨sent, happend, hsent⟩ := h.sends
    refine ⟨sent, htransfers ▸ happend, fun t ht o hmemo => ?_⟩
    obtain ⟨r, hs, rfl⟩ := Step.stakes_of_sends (hsent t ht) hmemo
    exact hsubmits r hs
  refusals := by
    obtain ⟨refused, happend, hrefused⟩ := h.refuses
    refine ⟨refused, hrefusals ▸ happend, fun t ht o hmemo => ?_⟩
    obtain ⟨r, hs, rfl⟩ := hrefused t ht o hmemo
    exact hsubmits r hs
  confirmed o r hr hconfirmed hemail := by
    rcases h.registration_confirmed hr hconfirmed with hold | ⟨q, rfl, rfl, -⟩ | ⟨rfl, -⟩
    · rw [← hcontents, Contents.confirms, hold]
      exact .inl hconfirmed
    · exact .inr (hsubmits q .confirmed)
    · exact absurd h.silent_of_granted hemail

/-- **An act is backed** where codes are mailed: only a confirmation stakes. -/
theorem World.backed_of_mailed (hw : w.Good) (hmailed : w.books.Mailed) (a : Act) :
    w.Backed settings a := by
  have hevent := act_event settings hw a
  generalize hact : w.act settings a = w' at hevent
  cases hevent with
  | called made makes =>
    exact .of_step (hact ▸ made.step) rfl rfl rfl fun r => makes.submits made.step hmailed
  | advanced _ made done =>
    refine .of_step (hact ▸ made.step) rfl rfl rfl fun r hs => ?_
    rcases done with ⟨p, rfl, -⟩ | ⟨rfl, -⟩ <;> cases hs
  | @idle place _ =>
    have hstep : Step settings w.clock w.books .nothing
        (w.act settings (.background place)).books := by
      rw [hact]
      exact .nothing
    exact .of_step hstep rfl rfl rfl (by rintro r ⟨⟩)
  | @surrounded e =>
    have hstep : Step settings w.clock (w.surround e).books .nothing
        (w.act settings (.surround e)).books := by
      rw [hact]
      exact .nothing
    exact .of_step hstep (LawfulStore.contents_failOn e.failing w.store) rfl rfl
      (by rintro r ⟨⟩)

theorem World.mailed_run (settings : Settings) (clock : Timestamp) (acts : List Act) :
    ((World.start clock : World σ).run settings acts).books.Mailed := by
  refine World.books_run (good_start clock) ?_ (fun _ _ _ hb => hb)
    (fun _ _ _ _ hb hstep => hstep.mailed hb) acts
  rw [books_start]
  exact nofun

end Runs

/-- **No stake without a mailed code**, in every run on every store, whatever fails around
the service: who is staked, or confirmed with an email, submits the code that was mailed to
them. -/
theorem backed_run (kind : StoreKind) (settings : Settings) (clock : Timestamp)
    (acts : List Act) (a : Act) :
    ((World.start clock : World kind.State).run settings acts).Backed settings a :=
  World.backed_of_mailed (World.good_run settings (World.good_start clock) acts)
    (World.mailed_run settings clock acts) a

end Onboarding
