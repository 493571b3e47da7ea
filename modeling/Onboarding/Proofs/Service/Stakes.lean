import Onboarding.Proofs.Service.Rewards
/-!
# Stakes — the store, the chain and the mail move together

A registration is confirmed, its stake is transferred and its owner is greeted by one
entry, and a grant is stored by another. `Success` names the entries that a client is told
of, and `Books.Balances` says how often each was made from three sides: by what is stored,
by what was transferred and by what was mailed. Every entry keeps the three in balance as
long as the store does not fail (`Step.balances`); a stake that was transferred and could
not be stored is the one entry that would not.
-/

namespace Onboarding

/-- What a client may be told to have succeeded. -/
inductive Success where
  /-- A registration, first or renewed. -/
  | registered
  | confirmed
  | granted
deriving DecidableEq, Repr

namespace Entry

/-- The success that an entry is. -/
def success? : Entry → Option Success
  | enrolled _ | renewed _ => some .registered
  | confirmed _ => some .confirmed
  | granted _ => some .granted
  | _ => none

/-- How often an entry is a success of this kind. -/
def count (entry : Entry) (k : Success) : Nat := if entry.success? = some k then 1 else 0

/-- The registration that an entry leaves confirmed. -/
def confirmation? (now : Timestamp) : Entry → Option Registration
  | confirmed r => some { r with confirmedAt := some now }
  | granted r => some r
  | _ => none

/-- A first registration has an email. -/
def Named : Entry → Prop
  | enrolled r => r.email ≠ ""
  | _ => True

end Entry

/-- A registration is held and confirmed. -/
def Contents.Confirmed (c : Contents) (r : Registration) : Prop :=
  c.Holds r ∧ r.isConfirmed = true

/-- The transfers with the memo of a stake. -/
def Books.stakes (b : Books) (o : Owner) : List Transfer :=
  b.transfers.filter (·.memo = Confirmation.stakeMemo o)

/-! ## What is confirmed -/

namespace Step

variable {settings : Settings} {now : Timestamp} {b b' : Books} {entry : Entry}

/-- **What is confirmed** was confirmed before, or the entry confirmed it. -/
theorem confirmed_iff (h : Step settings now b entry b') {r : Registration} :
    b'.contents.Confirmed r ↔ b.contents.Confirmed r ∨ entry.confirmation? now = some r := by
  constructor
  · rintro ⟨hr, hconfirmed⟩
    rcases h.registration_confirmed hr hconfirmed with hold | ⟨q, rfl, -, rfl⟩ | ⟨rfl, -⟩
    · exact .inl ⟨hold, hconfirmed⟩
    · exact .inr rfl
    · exact .inr rfl
  · rintro (⟨hr, hconfirmed⟩ | hnew)
    · obtain ⟨r', hr', hgrows⟩ := h.evolves.registration hr
      rw [hgrows.kept hconfirmed] at hr'
      exact ⟨hr', hconfirmed⟩
    · cases h with
      | confirmed held fresh =>
        cases hnew
        exact ⟨Contents.registration_put_self _ _, rfl⟩
      | granted _ _ _ confirmed _ _ _ _ _ =>
        cases hnew
        refine ⟨Contents.registration_put_self _ _, ?_⟩
        rw [Registration.isConfirmed, confirmed]
        rfl
      | _ => cases hnew

/-- What an entry confirms was not confirmed before. -/
theorem not_confirmed (h : Step settings now b entry b') {r : Registration}
    (hnew : entry.confirmation? now = some r) : ¬ b.contents.Confirmed r := by
  rintro ⟨hr, hconfirmed⟩
  cases h with
  | @confirmed q held fresh =>
    cases hnew
    -- the same owner would have two registrations, one of them confirmed
    have hq : { q with confirmedAt := some now } = q := held.eq hr rfl
    rw [← hq] at fresh
    cases fresh
  | granted _ _ _ _ _ absent _ _ _ =>
    cases hnew
    cases absent.symm.trans hr
  | _ => cases hnew

/-- Whoever still has to confirm has an email to be written to. -/
theorem email_ne (h : Step settings now b entry b') (hentry : entry.Named)
    (hb : ∀ r, b.contents.Holds r → r.isConfirmed = false → r.email ≠ "") {r : Registration}
    (hr : b'.contents.Holds r) (hopen : r.isConfirmed = false) : r.email ≠ "" := by
  have hfresh : ∀ {q : Registration}, q.confirmedAt = none → q.isConfirmed = false := by
    intro q hq
    rw [Registration.isConfirmed, hq]
    rfl
  cases h with
  | nothing | stakeRefused _ _ | stakeLost _ _ _ | grantRefused _ _ _ | grantLost _ _ _
  | installed _ _ _ | paid _ _ _ _ _ _ _ _ => exact hb r hr hopen
  | enrolled _ _ _ _ _ _ _ _ =>
    rw [Contents.Holds, Contents.registration_invite] at hr
    rcases Contents.holds_put.1 hr with rfl | ⟨-, hold⟩
    · exact hentry
    · exact hb r hold hopen
  | renewed held fresh _ _ _ | tracked held fresh _ _ =>
    rw [Contents.Holds, Contents.registration_invite] at hr
    rcases Contents.holds_put.1 hr with rfl | ⟨-, hold⟩
    · have hemail := hb _ held (hfresh fresh)
      exact hemail
    · exact hb r hold hopen
  | confirmed _ _ =>
    rcases Contents.holds_put.1 hr with rfl | ⟨-, hold⟩
    · cases hopen
    · exact hb r hold hopen
  | granted _ _ _ confirmed _ _ _ _ _ =>
    rcases Contents.holds_put.1 hr with rfl | ⟨-, hold⟩
    · rw [Registration.isConfirmed, confirmed] at hopen
      cases hopen
    · exact hb r hold hopen

end Step

/-! ## The stake of an owner -/

theorem Settings.memo_stake (settings : Settings) (r : Registration) :
    (settings.stake r).memo = Purpose.stake.memo r.owner.text := rfl

theorem Faucet.memo_grant (stake : TokenAmount) (address : WalletAddress) :
    (Faucet.grant stake address).memo = Purpose.grant.memo address.text := rfl

/-- An owner who confirmed was transferred the stake once, and nobody else was. -/
inductive Books.Staked (settings : Settings) (b : Books) (o : Owner) : Prop
  | unpaid (silent : ∀ r, b.contents.registration o = some r → r.isConfirmed = true → r.email = "")
      (none : b.stakes o = [])
  | paid {r : Registration}
      (row : b.contents.registration o = some r)
      (confirmed : r.isConfirmed = true)
      (email : r.email ≠ "")
      (once : b.stakes o = [settings.stake r])

namespace Step

variable {settings : Settings} {now : Timestamp} {b b' : Books} {entry : Entry} {o : Owner}

/-- A memo that begins like that of a stake belongs to one. -/
theorem stake_of_sends {t : Transfer} (h : entry.Sends settings t)
    (hmemo : Purpose.stake.Leads t.memo) :
    ∃ r, (entry = .confirmed r ∨ entry = .stakeLost r) ∧ t = settings.stake r := by
  cases h with
  | stake => exact ⟨_, .inl rfl, rfl⟩
  | lostStake => exact ⟨_, .inr rfl, rfl⟩
  | reward side =>
    rw [Side.memo_transfer, Side.memo_eq, Purpose.leads_memo] at hmemo
    cases side <;> cases hmemo
  | grant | lostGrant =>
    rw [Faucet.memo_grant, Purpose.leads_memo] at hmemo
    cases hmemo

/-- No stake is lost where the store does not fail. -/
theorem ne_stakeLost (h : Step settings now b entry b') (hsafe : b.failing = [])
    (r : Registration) : entry ≠ .stakeLost r := by
  rintro rfl
  cases h with
  | stakeLost _ _ broken =>
    rw [hsafe] at broken
    cases broken

/-- Only a confirmation transfers a stake. -/
theorem stakes_eq (h : Step settings now b entry b') (hsafe : b.failing = [])
    (hother : ∀ r, entry = .confirmed r → r.owner ≠ o) : b'.stakes o = b.stakes o := by
  refine h.filter_transfers fun t ht => decide_eq_false fun hmemo => ?_
  have hleads : Purpose.stake.Leads t.memo := by
    rw [hmemo, Purpose.stakeMemo_eq]
    exact Purpose.leads_memo.2 rfl
  obtain ⟨r, hentry, rfl⟩ := stake_of_sends ht hleads
  rcases hentry with rfl | rfl
  · rw [Settings.memo_stake, Purpose.stakeMemo_eq, Purpose.memo_inj] at hmemo
    exact hother r rfl (Owner.text_inj.1 hmemo.2)
  · exact h.ne_stakeLost hsafe r rfl

/-- **Every entry keeps what an owner was transferred in line with what it confirmed.** -/
theorem staked (h : Step settings now b entry b') (hsafe : b.failing = [])
    (hnamed : ∀ r, b.contents.Holds r → r.isConfirmed = false → r.email ≠ "")
    (hb : b.Staked settings o) : b'.Staked settings o := by
  by_cases hconfirming : ∃ r, entry = .confirmed r ∧ r.owner = o
  -- the owner confirms: nothing was transferred before, and one stake is now
  · obtain ⟨r, rfl, rfl⟩ := hconfirming
    cases h with
    | confirmed held fresh =>
      have hopen : r.isConfirmed = false := by rw [Registration.isConfirmed, fresh]; rfl
      cases hb with
      | unpaid _ none =>
        refine .paid (Contents.registration_put_self _ _) rfl (hnamed r held hopen) ?_
        rw [Books.stakes, List.filter_append, ← Books.stakes, none, List.nil_append]
        exact List.filter_cons_of_pos (decide_eq_true rfl)
      | paid row confirmed _ _ =>
        rw [held.symm.trans row |> Option.some.inj, confirmed] at hopen
        cases hopen
  -- somebody else's entry: no transfer, and no confirmation but a silent grant
  have hother : ∀ r, entry = .confirmed r → r.owner ≠ o :=
    fun r hr howner => hconfirming ⟨r, hr, howner⟩
  have hstakes := h.stakes_eq hsafe hother
  cases hb with
  | unpaid silent none =>
    refine .unpaid (fun r hr hconfirmed => ?_) (hstakes.trans none)
    rcases h.registration_confirmed hr hconfirmed with hold | ⟨q, hq, howner, -⟩ | ⟨rfl, -⟩
    · exact silent r hold hconfirmed
    · exact absurd howner (hother q hq)
    · cases h with
      | granted _ _ silent _ _ _ _ _ _ => exact silent
  | paid row confirmed email once =>
    obtain ⟨r', hr', hgrows⟩ := h.evolves.registration row
    rw [hgrows.kept confirmed] at hr'
    exact .paid hr' confirmed email (hstakes.trans once)

end Step

/-! ## The balance -/

/-- What is stored, transferred and mailed, by how often something succeeded. -/
structure Books.Balances (settings : Settings) (b : Books) (n : Success → Nat) : Prop where
  /-- A stake for everyone who confirmed, and for nobody else. -/
  staked : ∀ o, b.Staked settings o
  named : ∀ r, b.contents.Holds r → r.isConfirmed = false → r.email ≠ ""
  stakes : b.transfers.countP (fun t => Purpose.stake.Leads t.memo) = n .confirmed
  welcomes : Mail.welcomeCount b.outbox = n .confirmed
  codes : (Mail.codes b.outbox).length = n .registered
  /-- What is confirmed has an email unless it was granted. -/
  rows : ∃ rs : List Registration, rs.Nodup ∧ (∀ r, r ∈ rs ↔ b.contents.Confirmed r) ∧
    rs.countP (·.email ≠ "") = n .confirmed ∧ rs.countP (·.email = "") = n .granted

namespace Step

variable {settings : Settings} {now : Timestamp} {b b' : Books} {entry : Entry}

theorem countP_stakes (h : Step settings now b entry b') (hsafe : b.failing = []) :
    b'.transfers.countP (fun t => Purpose.stake.Leads t.memo) =
      b.transfers.countP (fun t => Purpose.stake.Leads t.memo) + entry.count .confirmed := by
  by_cases hconfirming : ∃ r, entry = .confirmed r
  · obtain ⟨r, rfl⟩ := hconfirming
    cases h with
    | confirmed held fresh =>
      have hleads : Purpose.stake.Leads (settings.stake r).memo := by
        rw [Settings.memo_stake]
        exact Purpose.leads_memo.2 rfl
      rw [List.countP_append, List.countP_singleton, if_pos (decide_eq_true hleads)]
      rfl
  · have hcount : entry.count .confirmed = 0 := by
      cases entry <;> first | rfl | exact absurd ⟨_, rfl⟩ hconfirming
    rw [hcount, List.countP_eq_length_filter, List.countP_eq_length_filter]
    refine congrArg List.length (h.filter_transfers fun t ht => decide_eq_false fun hleads => ?_)
    obtain ⟨r, hr | hr, -⟩ := stake_of_sends ht hleads
    · exact hconfirming ⟨r, hr⟩
    · exact h.ne_stakeLost hsafe r hr

theorem welcomeCount (h : Step settings now b entry b') :
    Mail.welcomeCount b'.outbox = Mail.welcomeCount b.outbox + entry.count .confirmed := by
  cases h with
  | enrolled _ _ _ _ _ _ _ _ | renewed _ _ _ _ _ | confirmed _ _ =>
    exact List.countP_append
  | _ => rfl

theorem length_codes (h : Step settings now b entry b') :
    (Mail.codes b'.outbox).length = (Mail.codes b.outbox).length + entry.count .registered := by
  cases h with
  | enrolled _ _ _ _ _ _ _ _ | renewed _ _ _ _ _ | confirmed _ _ =>
    rw [Mail.codes, List.filterMap_append, List.length_append]
    rfl
  | _ => rfl

/-- What an entry confirms has an email unless it was granted. -/
theorem email_confirmation (h : Step settings now b entry b')
    (hnamed : ∀ r, b.contents.Holds r → r.isConfirmed = false → r.email ≠ "") :
    (entry.confirmation? now).toList.countP (·.email ≠ "") = entry.count .confirmed ∧
      (entry.confirmation? now).toList.countP (·.email = "") = entry.count .granted := by
  cases h with
  | @confirmed r held fresh =>
    have hemail := hnamed r held (by rw [Registration.isConfirmed, fresh]; rfl)
    simp [Entry.confirmation?, Entry.count, Entry.success?, hemail]
  | granted _ _ silent _ _ _ _ _ _ =>
    simp [Entry.confirmation?, Entry.count, Entry.success?, silent]
  | _ => exact ⟨rfl, rfl⟩

/-- **Every entry keeps the balance**, if the store does not fail. -/
theorem balances (h : Step settings now b entry b') (hsafe : b.failing = []) (hentry : entry.Named)
    {n : Success → Nat} (hb : b.Balances settings n) :
    b'.Balances settings fun k => n k + entry.count k where
  staked _ := h.staked hsafe hb.named (hb.staked _)
  named _ := h.email_ne hentry hb.named
  stakes := by rw [h.countP_stakes hsafe, hb.stakes]
  welcomes := by rw [h.welcomeCount, hb.welcomes]
  codes := by rw [h.length_codes, hb.codes]
  rows := by
    obtain ⟨rs, hnodup, hmem, hconfirmed, hgranted⟩ := hb.rows
    -- the list grows by what the entry confirms, which was not in it
    obtain ⟨hnew, hgrant⟩ := h.email_confirmation hb.named
    refine ⟨rs ++ (entry.confirmation? now).toList, ?_, fun r => ?_, ?_, ?_⟩
    · have hone : (entry.confirmation? now).toList.Nodup := by
        cases entry.confirmation? now <;> simp
      refine hnodup.append hone fun r hr hnew => ?_
      exact h.not_confirmed (Option.mem_toList.1 hnew) ((hmem r).1 hr)
    · rw [List.mem_append, hmem, Option.mem_toList, h.confirmed_iff]
    · rw [List.countP_append, hconfirmed, hnew]
    · rw [List.countP_append, hgranted, hgrant]

end Step

end Onboarding
