import Onboarding.Proofs.Service.Frame
/-!
# Scope — a call touches only its own owner

Every call is addressed to one owner, or to nobody if it only reports. The calls of all
owners write to the same tables and indexes, and a payout reads what is stored of a second
owner, the sender of the referral. `Books.Concerns` says that nothing was done all the same
but to one owner: the records of everyone else stand as they stood, every mail went to the
email of the owner, and every transfer to the wallet of the owner, but for the reward of the
sender.

`Step.concerns` says so of an entry, and entries that concern one owner add up
(`Concerns.trans`). The payouts that a call leaves waiting are its owner's, so it is said of
the call with its payouts, too (`scoped_run`).
-/

namespace Onboarding

open StoreView

/-! ## Addressees -/

/-- Whom a call is addressed to. -/
def Call.addressee? : Call → Option Owner
  | register email _ _ => some (.ofEmail email.1)
  | trackReferral receiver _ => some receiver
  | confirm owner _ => some owner
  | markInstalled receiver => some receiver
  | advanceReferral receiver => some receiver
  | grantTestnetStake address => some (.ofAddress address.text)
  | registrationStats | senderStats _ | staleReferrals _ | pingChain => none

/-- The wallet that a call asks a grant for. -/
def Call.granted? : Call → Option WalletAddress
  | grantTestnetStake address => some address
  | _ => none

/-- Whom an entry is about. -/
def Entry.owner? : Entry → Option Owner
  | nothing => none
  | enrolled r | renewed r | tracked r | stakeRefused r | stakeLost r | confirmed r | granted r =>
    some r.owner
  | installed f => some f.receiver
  | paid p => some p.receiver
  | grantRefused address | grantLost address => some (.ofAddress address.text)

/-- The wallet of a grant. -/
def Entry.granted? : Entry → Option WalletAddress
  | grantRefused address | grantLost address => some address
  | granted r => some r.address
  | _ => none

/-- The entry is about this owner, and about no other grant than this one. -/
structure Entry.IsAbout (entry : Entry) (o : Owner) (granted? : Option WalletAddress) : Prop where
  owner : ∀ p, entry.owner? = some p → p = o
  granted : ∀ a, entry.granted? = some a → granted? = some a

theorem Entry.isAbout_nothing (o : Owner) (granted? : Option WalletAddress) :
    Entry.nothing.IsAbout o granted? := ⟨nofun, nofun⟩

theorem Entry.isAbout_paid {p : Payout} {o : Owner} (h : p.receiver = o)
    (granted? : Option WalletAddress) : (Entry.paid p).IsAbout o granted? :=
  ⟨fun _ hp => (Option.some.inj hp).symm.trans h, nofun⟩

/-- **What a call enters is about its addressee.** -/
theorem Makes.isAbout {σ : Type} [Store σ] [StoreView σ] {settings : Settings} {w : World σ}
    {c : Call} {entry : Entry} {o : Owner} (h : Makes settings w c entry)
    (ho : c.addressee? = some o) : entry.IsAbout o c.granted? := by
  have hself : ∀ {p q : Owner}, p = o → some p = some q → q = o :=
    fun hp hq => (Option.some.inj hq).symm.trans hp
  cases h with
  | nothing => exact Entry.isAbout_nothing _ _
  | enrolled howner | renewed howner =>
    exact ⟨fun _ hp => hself (howner.trans (Option.some.inj ho)) hp, nofun⟩
  | tracked | installed | paid => exact ⟨fun _ hp => hself (Option.some.inj ho) hp, nofun⟩
  | @confirming owner code _ answer =>
    obtain rfl : owner = o := Option.some.inj ho
    generalize (confirm settings owner code w).1 = x at answer
    cases answer with
    | failed => exact Entry.isAbout_nothing _ _
    | done howner _ | refused howner _ | lost howner _ =>
      exact ⟨fun _ hp => hself howner hp, nofun⟩
  | @granting address _ answer =>
    obtain rfl : Owner.ofAddress address.text = o := Option.some.inj ho
    generalize (grantTestnetStake settings address w).1 = x at answer
    cases answer with
    | failed => exact Entry.isAbout_nothing _ _
    | done howner haddress =>
      refine ⟨fun _ hp => hself howner hp, fun a ha => ?_⟩
      rw [← haddress]
      exact ha
    | refused | lost _ => exact ⟨fun _ hp => hself rfl hp, fun _ ha => ha⟩

/-! ## What is added -/

/-- The second list is the first one with entries of a kind behind it. -/
def Adds {α : Type} (P : α → Prop) (xs ys : List α) : Prop :=
  ∃ new, ys = xs ++ new ∧ ∀ a ∈ new, P a

namespace Adds

variable {α : Type} {P Q : α → Prop} {xs ys zs new : List α}

theorem refl (P : α → Prop) (xs : List α) : Adds P xs xs :=
  ⟨[], (List.append_nil xs).symm, nofun⟩

theorem append (h : ∀ a ∈ new, P a) : Adds P xs (xs ++ new) := ⟨new, rfl, h⟩

theorem singleton {a : α} (h : P a) : Adds P xs (xs ++ [a]) :=
  append fun b hb => by rwa [List.mem_singleton.1 hb]

theorem mono (h : Adds P xs ys) (hPQ : ∀ a, P a → Q a) : Adds Q xs ys := by
  obtain ⟨new, hnew, hP⟩ := h
  exact ⟨new, hnew, fun a ha => hPQ a (hP a ha)⟩

theorem trans (h : Adds P xs ys) (h' : Adds P ys zs) : Adds P xs zs := by
  obtain ⟨new, rfl, hnew⟩ := h
  obtain ⟨new', rfl, hnew'⟩ := h'
  refine ⟨new ++ new', List.append_assoc .., fun a ha => ?_⟩
  rcases List.mem_append.1 ha with ha | ha
  · exact hnew a ha
  · exact hnew' a ha

end Adds

/-- Whom a mail goes to. -/
def Mail.email : Mail → String
  | verification email _ => email
  | welcome email => email

/-- What may be transferred for an owner: the stake and the reward of a receiver to the
wallet that is stored for the owner, the reward of a sender to the wallet of the sender of
the owner's referral, and a grant to the wallet it was asked for. -/
inductive Contents.PaysFor (c : Contents) (o : Owner) (granted? : Option WalletAddress)
    (t : Transfer) : Prop
  | own {r : Registration} (held : c.registration o = some r) (address_eq : t.address = r.address)
      (memo : t.memo = Confirmation.stakeMemo o ∨ t.memo = Payout.receiverMemo o)
  | sender {f : Referral} {q : Registration} (row : c.referral o = some f)
      (held : c.registration f.sender = some q) (address_eq : t.address = q.address)
      (memo : t.memo = Payout.senderMemo o)
  | grant {address : WalletAddress} (granted : granted? = some address)
      (address_eq : t.address = address) (memo : t.memo = Faucet.memo address)

/-- What is transferred for an owner goes on to be so, to the same wallet. -/
theorem Contents.PaysFor.evolves {c c' : Contents} {o : Owner} {granted? : Option WalletAddress}
    {t : Transfer} (h : c.PaysFor o granted? t) (hc : c.Evolves c') : c'.PaysFor o granted? t := by
  cases h with
  | own held haddress hmemo =>
    obtain ⟨r', hr', hgrows⟩ := hc.registration held
    exact .own hr' (haddress.trans hgrows.address_eq.symm) hmemo
  | sender row held haddress hmemo =>
    obtain ⟨f', hf', hfgrows⟩ := hc.referral row
    obtain ⟨q', hq', hqgrows⟩ := hc.registration held
    rw [← hfgrows.sender_eq] at hq'
    exact .sender hf' hq' (haddress.trans hqgrows.address_eq.symm) hmemo
  | grant hgranted haddress hmemo => exact .grant hgranted haddress hmemo

/-- The email that is stored for an owner. -/
def Contents.IsEmailOf (c : Contents) (o : Owner) (email : String) : Prop :=
  ∃ r, c.registration o = some r ∧ email = r.email

theorem Contents.IsEmailOf.evolves {c c' : Contents} {o : Owner} {email : String}
    (h : c.IsEmailOf o email) (hc : c.Evolves c') : c'.IsEmailOf o email := by
  obtain ⟨r, hr, rfl⟩ := h
  obtain ⟨r', hr', hgrows⟩ := hc.registration hr
  exact ⟨r', hr', hgrows.email_eq.symm⟩

/-! ## What concerns one owner -/

/-- Between two states of the books nothing was done but to one owner. -/
structure Books.Concerns (o : Owner) (granted? : Option WalletAddress) (b b' : Books) :
    Prop where
  registration : ∀ p, p ≠ o → b'.contents.registration p = b.contents.registration p
  referral : ∀ p, p ≠ o → b'.contents.referral p = b.contents.referral p
  /-- Nor was anything taken away. -/
  evolves : b.contents.Evolves b'.contents
  outbox : Adds (fun m => b'.contents.IsEmailOf o m.email) b.outbox b'.outbox
  transfers : Adds (b'.contents.PaysFor o granted?) b.transfers b'.transfers
  refusals : Adds (b'.contents.PaysFor o granted?) b.refusals b'.refusals

namespace Books.Concerns

variable {o : Owner} {granted? : Option WalletAddress} {b b' b'' : Books}

theorem refl (o : Owner) (granted? : Option WalletAddress) (b : Books) :
    b.Concerns o granted? b :=
  ⟨fun _ _ => rfl, fun _ _ => rfl, .refl _, .refl _ _, .refl _ _, .refl _ _⟩

theorem trans (h : b.Concerns o granted? b') (h' : b'.Concerns o granted? b'') :
    b.Concerns o granted? b'' where
  registration p hp := (h'.registration p hp).trans (h.registration p hp)
  referral p hp := (h'.referral p hp).trans (h.referral p hp)
  evolves := h.evolves.trans h'.evolves
  outbox := (h.outbox.mono fun _ hm => hm.evolves h'.evolves).trans h'.outbox
  transfers := (h.transfers.mono fun _ ht => ht.evolves h'.evolves).trans h'.transfers
  refusals := (h.refusals.mono fun _ ht => ht.evolves h'.evolves).trans h'.refusals

/-- Who waits does not matter. -/
theorem rest (h : b.Concerns o granted? b') (pending pending' : List Owner) :
    { b with pending }.Concerns o granted? { b' with pending := pending' } :=
  ⟨h.registration, h.referral, h.evolves, h.outbox, h.transfers, h.refusals⟩

end Books.Concerns

/-- An invitation stands under whoever is invited. -/
theorem Contents.referral_invite_of_ne {c : Contents} {receiver o : Owner} {now : Timestamp}
    {sender? : Option Owner} (h : o ≠ receiver) :
    (c.invite receiver now sender?).referral o = c.referral o := by
  cases sender? with
  | none => rfl
  | some sender => exact referral_refer_of_ne h

/-- What a payout transfers, it transfers for the receiver. -/
theorem Contents.paysFor_of_mem_transfers {c : Contents} {o : Owner}
    {granted? : Option WalletAddress} {f : Referral} {receiving sending : Registration}
    {a b : TokenAmount} {t : Transfer}
    (hf : c.referral o = some f) (hreceiving : c.registration o = some receiving)
    (hsending : c.registration f.sender = some sending)
    (ht : t ∈ Payout.transfers ⟨f.sender, sending.address, a, o, receiving.address, b⟩) :
    c.PaysFor o granted? t := by
  rcases List.mem_cons.1 ht with rfl | ht
  · exact .sender hf hsending rfl rfl
  · obtain rfl := List.mem_singleton.1 ht
    exact .own hreceiving rfl (.inr rfl)

namespace Step

variable {settings : Settings} {now : Timestamp} {b b' : Books} {entry : Entry} {o : Owner}
  {granted? : Option WalletAddress}

/-- **An entry about an owner concerns nobody else.** -/
theorem concerns (h : Step settings now b entry b') (ha : entry.IsAbout o granted?) :
    b.Concerns o granted? b' := by
  have hevolves := h.evolves
  cases h with
  | nothing => exact .refl o granted? b
  | enrolled _ _ _ _ _ _ _ _ | renewed _ _ _ _ _ =>
    obtain rfl := ha.owner _ rfl
    refine ⟨fun p hp => ?_, fun p hp => ?_, hevolves, .singleton ?_, .refl _ _, .refl _ _⟩
    · rw [Contents.registration_invite, Contents.registration_put_of_ne hp]
    · rw [Contents.referral_invite_of_ne hp, Contents.referral_put]
    · exact ⟨_, (congrFun (Contents.registration_invite ..) _).trans
        (Contents.registration_put_self ..), rfl⟩
  | tracked _ _ _ _ =>
    obtain rfl := ha.owner _ rfl
    refine ⟨fun p hp => ?_, fun p hp => ?_, hevolves, .refl _ _, .refl _ _, .refl _ _⟩
    · rw [Contents.registration_invite, Contents.registration_put_of_ne hp]
    · rw [Contents.referral_invite_of_ne hp, Contents.referral_put]
  | stakeRefused held _ =>
    obtain rfl := ha.owner _ rfl
    exact ⟨fun _ _ => rfl, fun _ _ => rfl, hevolves, .refl _ _, .refl _ _,
      .singleton (.own held rfl (.inl rfl))⟩
  | stakeLost held _ _ =>
    obtain rfl := ha.owner _ rfl
    exact ⟨fun _ _ => rfl, fun _ _ => rfl, hevolves, .refl _ _,
      .singleton (.own held rfl (.inl rfl)), .refl _ _⟩
  | @confirmed r _ _ =>
    obtain rfl := ha.owner _ rfl
    have hheld := Contents.registration_put_self b.contents { r with confirmedAt := some now }
    exact ⟨fun p hp => Contents.registration_put_of_ne hp, fun _ _ => rfl, hevolves,
      .singleton ⟨_, hheld, rfl⟩, .singleton (.own hheld rfl (.inl rfl)), .refl _ _⟩
  | installed _ _ _ =>
    obtain rfl := ha.owner _ rfl
    exact ⟨fun _ _ => rfl, fun p hp => Contents.referral_refer_of_ne hp, hevolves, .refl _ _,
      .refl _ _, .refl _ _⟩
  | @paid f receiving sending n accepted refused p held installed receiver ready sender earlier
      payout sent =>
    obtain rfl : f.receiver = o := ha.owner _ (by rw [payout]; rfl)
    -- the referral goes on under the same two
    have hrow := Contents.referral_refer_self b.contents { f with
      status := .confirmed
      confirmedAt := some now
      senderReward := some p.senderReward
      receiverReward := some p.receiverReward }
    have hdue : ∀ t ∈ p.transfers, Contents.PaysFor _ f.receiver granted? t := fun t ht =>
      Contents.paysFor_of_mem_transfers hrow receiver sender (payout ▸ ht)
    exact ⟨fun _ _ => rfl, fun p hp => Contents.referral_refer_of_ne hp, hevolves, .refl _ _,
      .append fun t ht => hdue t (sent.accepted_subset ht),
      .append fun t ht => hdue t (sent.refused_subset ht)⟩
  | grantRefused _ _ _ =>
    exact ⟨fun _ _ => rfl, fun _ _ => rfl, hevolves, .refl _ _, .refl _ _,
      .singleton (.grant (ha.granted _ rfl) rfl rfl)⟩
  | grantLost _ _ _ =>
    exact ⟨fun _ _ => rfl, fun _ _ => rfl, hevolves, .refl _ _,
      .singleton (.grant (ha.granted _ rfl) rfl rfl), .refl _ _⟩
  | granted _ _ _ _ _ _ _ _ _ =>
    obtain rfl := ha.owner _ rfl
    exact ⟨fun p hp => Contents.registration_put_of_ne hp, fun _ _ => rfl, hevolves, .refl _ _,
      .singleton (.grant (ha.granted _ rfl) rfl rfl), .refl _ _⟩

/-- Only the owner of an entry is left waiting by it. -/
theorem pending_adds (h : Step settings now b entry b') (ha : entry.IsAbout o granted?) :
    Adds (· = o) b.pending b'.pending := by
  cases h with
  | confirmed _ _ => exact .singleton (ha.owner _ rfl)
  | @installed f waiting _ _ noticed =>
    refine .append fun p hp => ?_
    rcases noticed with rfl | ⟨rfl, -⟩
    · rw [List.mem_singleton.1 hp]
      exact ha.owner _ rfl
    · cases hp
  | _ => exact .refl _ _

end Step

/-! ## Calls with their payouts -/

section Settled

variable {σ : Type} [Store σ]

/-- Where a call leads with the payouts that it leaves waiting. Whoever waited before goes on
waiting. -/
def World.settled (settings : Settings) (call : World σ → World σ) (w : World σ) : World σ :=
  { settle settings (call { w with pending := [] }) with pending := w.pending }

/-- The world after a call and its payouts. -/
def Call.settled (settings : Settings) (w : World σ) (c : Call) : World σ :=
  w.settled settings (c.after settings ·)

/-- What a call and each of its payouts keep, whoever waits, they keep together. -/
theorem World.settled_keeps {settings : Settings} {call : World σ → World σ} {w : World σ}
    {P : World σ → Prop} (hrest : ∀ v pending, P v → P { v with pending })
    (hcall : P (call { w with pending := [] }))
    (hstep : ∀ v, P v → ∀ o ∈ (call { w with pending := [] }).pending,
      P (advanceReferral settings o v).2) :
    P (w.settled settings call) := by
  have hpaid : P (settle settings (call { w with pending := [] })) :=
    List.foldlRecOn _ _ (hrest _ [] hcall) hstep
  exact hrest _ w.pending hpaid

variable [LawfulStore σ] {settings : Settings} {w : World σ} {c : Call} {o : Owner}

/-- **A call and its payouts concern its addressee.** -/
theorem Call.settled_concerns (hw : w.Good) (ho : c.addressee? = some o) :
    w.books.Concerns o c.granted? (c.settled settings w).books := by
  have hv : World.Good { w with pending := [] } := ⟨hw.sound, hw.quiet⟩
  obtain ⟨entry, hmakes, hmade⟩ := @call_made σ _ _ settings _ hv c
  have habout := hmakes.isAbout ho
  have hcalled := hmade.step.concerns habout
  obtain ⟨waiting, hwaiting, honly⟩ := hmade.step.pending_adds habout
  have hkept : (c.settled settings w).Good ∧
      w.books.Concerns o c.granted? (c.settled settings w).books := by
    refine World.settled_keeps (P := fun x => x.Good ∧ w.books.Concerns o c.granted? x.books)
      (fun v pending hv => ⟨⟨hv.1.sound, hv.1.quiet⟩, hv.2.rest w.pending pending⟩)
      ⟨hmade.good, hcalled.rest w.pending _⟩ ?_
    rintro v ⟨hv, hconcerns⟩ p hp
    -- whoever waits is the addressee
    have hpending : (c.after settings { w with pending := [] }).pending = waiting := hwaiting
    have hpo : p = o := honly p (hpending ▸ hp)
    rcases advanceReferral_made settings hv p with ⟨payout, hreceiver, hpaid⟩ | ⟨hnothing, -⟩
    · have hpayout := Entry.isAbout_paid (hreceiver.trans hpo) c.granted?
      exact ⟨hpaid.good, hconcerns.trans (hpaid.step.concerns hpayout)⟩
    · exact ⟨hnothing.good,
        hconcerns.trans (hnothing.step.concerns (Entry.isAbout_nothing o c.granted?))⟩
  exact hkept.2

/-- **No call lists a domain or takes one off the list.** -/
theorem Call.denies_settled [ListingStore σ] (hw : w.interruption = none) (c : Call)
    (key : String) : DenyingStore.Denies (c.settled settings w).store key ↔
      DenyingStore.Denies w.store key := by
  have hstable := ListingStore.recordStable_denies (σ := σ) (DenyingStore.Denies w.store)
  have hkept : (c.settled settings w).Holds
      (DenyingStore.Denies · = DenyingStore.Denies w.store) :=
    World.settled_keeps (fun _ _ hv => ⟨hv.store, hv.quiet⟩) (c.holds_after hstable settings
      ⟨rfl, hw⟩) fun _ hv p _ => (preserves_advanceReferral hstable settings p).snd hv
  exact iff_of_eq (congrFun hkept.store key)

end Settled

/-! ## In every run -/

section Seeded

variable {σ : Type} [Store σ] [LawfulStore σ] [ListingStore σ]

/-- Whatever is put on the denylist of a new store, the store is sound. -/
theorem Store.sound_seeded (domains : List String) : Sound (Store.seeded σ domains) := by
  induction domains using List.reverseRecOn with
  | nil => exact LawfulStore.sound_empty
  | append_singleton domains domain ih =>
    unfold Store.seeded at ih ⊢
    rw [List.foldl_concat]
    exact Store.alone_keeps ih (ListingStore.sound_put domain ih)

/-- The world before the first act, with these domains on the denylist. -/
def World.seeded (σ : Type) [Store σ] (clock : Timestamp) (domains : List String) : World σ where
  store := Store.seeded σ domains
  clock

theorem World.good_seeded (clock : Timestamp) (domains : List String) :
    (World.seeded σ clock domains).Good :=
  ⟨Store.sound_seeded domains, rfl⟩

end Seeded

/-- **A call touches only its own owner.** In every state that a run leads to, on either store
and with any domains on its denylist, a call that is addressed to `o` leaves with its
payouts the registration and the referral of every other owner as they were, and the
denylist. What it mails goes to the email that is stored for `o`. What it transfers, or tries
to, goes to the wallet of `o`, or it is the reward of the sender of `o`'s referral and goes to
the sender's wallet, or it is a grant and goes to the wallet that asked for it. -/
theorem scoped_run (kind : StoreKind) (settings : Settings) (clock : Timestamp)
    (domains : List String) (acts : List Act) (c : Call) (o : Owner)
    (ho : c.addressee? = some o) :
    let w := (World.seeded kind.State clock domains).run settings acts
    w.books.Concerns o c.granted? (c.settled settings w).books ∧
      ∀ key, DenyingStore.Denies (c.settled settings w).store key ↔
        DenyingStore.Denies w.store key := by
  intro w
  have hw : w.Good := World.good_run settings (World.good_seeded clock domains) acts
  refine ⟨Call.settled_concerns hw ho, fun key => ?_⟩
  cases kind <;> exact Call.denies_settled hw.quiet c key

namespace Invitee

/-- The second owner is invited by the first one and has installed the app. -/
def acts : List Act :=
  [.call (.register ⟨"a@x.com", Shared.byteLength_first⟩ Shared.wallet none),
    .call (.register ⟨"b@x.com", Shared.byteLength_second⟩ Shared.guestWallet
      (some ⟨"00000002", Shared.byteLength_code⟩)),
    .call (.markInstalled Shared.second)]

def world : World StoreKind.table.State :=
  (World.seeded StoreKind.table.State ⟨1700000000⟩ ["spam.example"]).run { } acts

/-- What the confirmation of the second owner leads to. -/
def confirmed : World StoreKind.table.State :=
  Call.settled { } world (.confirm Shared.second "00000000000000000000000000000003")

theorem transfers_confirmed : confirmed.ledger.transfers =
    [⟨Shared.guestWallet, ⟨1000000⟩, Confirmation.stakeMemo Shared.second⟩,
      ⟨Shared.wallet, ⟨10000000⟩, Payout.senderMemo Shared.second⟩,
      ⟨Shared.guestWallet, ⟨10000000⟩, Payout.receiverMemo Shared.second⟩] := by
  unfold confirmed world World.run acts
  simp only [List.foldl_cons, List.foldl_nil, World.act, Call.after, register,
    Shared.ofEmail_first, Shared.ofEmail_second]
  decide +kernel

end Invitee

open Invitee in
/-- The stake and both rewards are transferred by one call, and concern its addressee. -/
theorem scoped_run_invitee :
    (Call.confirm Shared.second "00000000000000000000000000000003").addressee? =
        some Shared.second ∧
      world.books.Concerns Shared.second none confirmed.books ∧
      confirmed.ledger.transfers.length = 3 := by
  refine ⟨rfl, (scoped_run .table { } ⟨1700000000⟩ ["spam.example"] acts
    (.confirm Shared.second "00000000000000000000000000000003") Shared.second rfl).1, ?_⟩
  rw [transfers_confirmed]
  rfl

end Onboarding
