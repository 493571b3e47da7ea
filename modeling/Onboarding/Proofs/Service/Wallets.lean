import Onboarding.Proofs.Service.Evolution
import Onboarding.Proofs.Service.Run
/-!
# Wallets — when one wallet is confirmed under two owners

A wallet is bound to the owner who is confirmed with it. Enrollment and the faucet look
for a bound wallet before they go on, and so none of them lets two owners share one. A
confirmation does not look: whoever registered a wallet while it was free may confirm it
after somebody else did. `shared_iff_rebinds` says that this is the only way.
-/

namespace Onboarding

open StoreView

namespace Contents

/-- Two owners are confirmed with one wallet. -/
def Shared (c : Contents) : Prop :=
  ∃ p q, c.Holds p ∧ c.Holds q ∧ p.owner ≠ q.owner ∧ p.isConfirmed = true ∧
    q.isConfirmed = true ∧ p.address = q.address

theorem not_shared_empty : ¬ empty.Shared := by
  rintro ⟨p, q, hp, -⟩
  cases hp

/-- A shared wallet stays shared. -/
theorem Evolves.shared {c c' : Contents} (h : c.Evolves c') (hshared : c.Shared) : c'.Shared := by
  obtain ⟨p, q, hp, hq, hne, hp', hq', haddress⟩ := hshared
  have hkept : ∀ {r : Registration}, c.Holds r → r.isConfirmed = true → c'.Holds r := by
    intro r hr hconfirmed
    -- confirmed records do not change
    obtain ⟨r', hr', hgrows⟩ := h.registration hr
    rw [hgrows.kept hconfirmed] at hr'
    exact hr'
  exact ⟨p, q, hkept hp hp', hkept hq hq', hne, hp', hq', haddress⟩

end Contents

namespace Step

variable {settings : Settings} {now : Timestamp} {b b' : Books} {entry : Entry}

/-- A grant is made only for a wallet that is not bound. -/
theorem unbound_of_granted {r : Registration} (h : Step settings now b (.granted r) b')
    (q : Registration) : ¬ b.contents.Binds r.address q := by
  cases h with
  | granted _ _ _ _ _ _ unbound _ _ => exact unbound q

theorem held_of_confirmed {r : Registration} (h : Step settings now b (.confirmed r) b') :
    b.contents.Holds r ∧ r.confirmedAt = none := by
  cases h with
  | confirmed held fresh => exact ⟨held, fresh⟩

/-- Confirming a wallet that is bound makes it shared: whom it was bound to was confirmed
before, and so is somebody else. -/
theorem shared_of_confirmed {r q : Registration} (h : Step settings now b (.confirmed r) b')
    (hq : b.contents.Binds r.address q) : b'.contents.Shared := by
  cases h with
  | confirmed held fresh =>
    have hne : q.owner ≠ r.owner := by
      intro howner
      have hconfirmed := hq.2.1
      rw [held.eq hq.1 howner, Registration.isConfirmed, fresh] at hconfirmed
      cases hconfirmed
    exact ⟨_, q, Contents.holds_put.2 (.inl rfl), Contents.holds_put.2 (.inr ⟨hne, hq.1⟩),
      hne.symm, rfl, hq.2.1, hq.2.2.symm⟩

/-- **Only a confirmation makes a wallet shared**, and only one that was bound. -/
theorem shared_cases (h : Step settings now b entry b') (hshared : b'.contents.Shared) :
    b.contents.Shared ∨ ∃ r q, entry = .confirmed r ∧ b.contents.Holds r ∧
      b.contents.Binds r.address q := by
  -- of two owners with one wallet at most one is confirmed by the entry: the other was before
  have hsecond : ∀ {p q : Registration}, b'.contents.Holds p → p.isConfirmed = true →
      b.contents.Binds p.address q → p.owner ≠ q.owner → b.contents.Shared ∨
        ∃ r q, entry = .confirmed r ∧ b.contents.Holds r ∧ b.contents.Binds r.address q := by
    intro p q hp hconfirmed hq hne
    rcases h.registration_confirmed hp hconfirmed with hold | ⟨r, rfl, -, rfl⟩ | ⟨rfl, -⟩
    · exact .inl ⟨p, q, hold, hq.1, hne, hconfirmed, hq.2.1, hq.2.2.symm⟩
    · exact .inr ⟨r, q, rfl, h.held_of_confirmed.1, hq⟩
    · exact absurd hq (h.unbound_of_granted q)
  obtain ⟨p, q, hp, hq, hne, hp', hq', haddress⟩ := hshared
  rcases h.registration_confirmed hq hq' with hold | hnew
  · exact hsecond hp hp' ⟨hold, hq', haddress.symm⟩ hne
  rcases h.registration_confirmed hp hp' with hold | hnew'
  · exact hsecond hq hq' ⟨hold, hp', haddress⟩ hne.symm
  -- an entry confirms one owner
  refine absurd ?_ hne
  rcases hnew with ⟨r, hr, howner, -⟩ | ⟨hr, -⟩ <;>
    rcases hnew' with ⟨r', hr', howner', -⟩ | ⟨hr', -⟩ <;> rw [hr] at hr' <;> cases hr'
  · exact howner'.symm.trans howner
  · rfl

end Step

section Runs

variable {σ : Type} [Store σ] [LawfulStore σ] {settings : Settings} {w w' : World σ}

/-- An act that confirms an owner whose wallet is bound already. -/
def World.Rebinds (settings : Settings) (w : World σ) (a : Act) : Prop :=
  ∃ owner code r q, a = .call (.confirm owner code) ∧
    (confirm settings owner code w).1 = .ok () ∧
    (contents w.store).registration owner = some r ∧ (contents w.store).Binds r.address q

/-- An act makes a wallet shared by confirming it a second time. -/
theorem Event.rebinds {a : Act} (h : Event settings w a w')
    (hshared : (contents w'.store).Shared) :
    (contents w.store).Shared ∨ w.Rebinds settings a := by
  cases h with
  | called made makes =>
    rcases made.step.shared_cases hshared with hbefore | ⟨r, q, rfl, hr, hq⟩
    · exact .inl hbefore
    · obtain ⟨code, rfl, hok⟩ := makes.of_confirmed
      exact .inr ⟨r.owner, code, r, q, rfl, hok, hr, hq⟩
  | advanced _ made done =>
    rcases made.step.shared_cases hshared with hbefore | ⟨r, q, rfl, -⟩
    · exact .inl hbefore
    · rcases done with ⟨p, hp, -⟩ | ⟨hnothing, -⟩
      · cases hp
      · cases hnothing
  | idle _ => exact .inl hshared
  | @surrounded e =>
    rw [World.surround, LawfulStore.contents_failOn] at hshared
    exact .inl hshared

/-- Confirming a wallet a second time makes it shared. -/
theorem World.Rebinds.shared {a : Act} (h : w.Rebinds settings a) (hw : w.Good) :
    (contents (w.act settings a).store).Shared := by
  obtain ⟨owner, code, r, q, rfl, hok, hr, hq⟩ := h
  obtain ⟨entry, hanswer, hmade⟩ := confirm_made settings hw owner code
  rw [hok] at hanswer
  cases hanswer with
  | @done r' howner _ =>
    have hheld : (contents w.store).Holds r' := hmade.step.held_of_confirmed.1
    -- the entry is about the registration that the owner has
    have hsame : r' = r := by
      rw [← howner, hheld] at hr
      exact Option.some_inj.1 hr
    exact hmade.step.shared_of_confirmed (hsame ▸ hq)

/-- A run goes on with what it has reached. -/
theorem World.run_append (before after : List Act) (w : World σ) :
    w.run settings (before ++ after) = (w.run settings before).run settings after :=
  List.foldl_append

/-- A wallet that is shared stays shared through a run. -/
theorem World.shared_run (hw : w.Good) (h : (contents w.store).Shared) (acts : List Act) :
    (contents (w.run settings acts).store).Shared :=
  World.books_run (P := fun b => b.contents.Shared) hw h (fun _ _ _ hb => hb)
    (fun _ _ _ _ hb hstep => hstep.evolves.shared hb) acts

end Runs

/-- **Two owners come to share a wallet exactly by a confirmation of a wallet that was
bound**, whatever the store and whatever happens around the service. -/
theorem shared_iff_rebinds (kind : StoreKind) (settings : Settings) (clock : Timestamp)
    (acts : List Act) :
    (contents ((World.start clock : World kind.State).run settings acts).store).Shared ↔
      ∃ before a after, acts = before ++ a :: after ∧
        ((World.start clock : World kind.State).run settings before).Rebinds settings a := by
  have hgood : ∀ acts, ((World.start clock : World kind.State).run settings acts).Good :=
    World.good_run settings (World.good_start clock)
  constructor
  · induction acts using List.reverseRecOn with
    | nil =>
      intro h
      have hempty : contents (World.start clock : World kind.State).store = .empty :=
        LawfulStore.contents_empty
      rw [World.run, List.foldl_nil, hempty] at h
      exact absurd h Contents.not_shared_empty
    | append_singleton acts a ih =>
      intro h
      rw [World.run_concat] at h
      rcases (act_event settings (hgood acts) a).rebinds h with hbefore | hrebinds
      · obtain ⟨before, a', after, rfl, hrebinds⟩ := ih hbefore
        exact ⟨before, a', after ++ [a], by simp, hrebinds⟩
      · exact ⟨acts, a, [], rfl, hrebinds⟩
  · rintro ⟨before, a, after, rfl, hrebinds⟩
    have hshared := hrebinds.shared (hgood before)
    have hgood' := (act_event settings (hgood before) a).good (hgood before)
    rw [World.run_append]
    exact World.shared_run hgood' hshared after

/-! ## A wallet that two owners share -/

namespace Shared

/-- A wallet that two emails are registered for. -/
def wallet : WalletAddress := ⟨"decentr1vg085ra5hw8mx5rrheqf8fruks0xv4urqkuqga"⟩

/-- The wallet of an owner who is invited. -/
def guestWallet : WalletAddress := ⟨"decentr190vqdjtlpcq27xslcveglfmr4ynfwg7gt47r3m"⟩

/-- The owner who confirms first. -/
def first : Owner := ⟨"bea112c11facdedc0ab577545efbafa8"⟩

/-- The owner who confirms after that. -/
def second : Owner := ⟨"54bf388053605c5eea0ed70cd18cb912"⟩

-- the hash goes over its blocks by a recursion on the length, which is opened by hand
theorem ofEmail_first : Owner.ofEmail "a@x.com" = first := by
  unfold Owner.ofEmail blake2b128 Blake2b.digest
  dsimp only
  rw [Blake2b.absorb]
  decide +kernel

theorem ofEmail_second : Owner.ofEmail "b@x.com" = second := by
  unfold Owner.ofEmail blake2b128 Blake2b.digest
  dsimp only
  rw [Blake2b.absorb]
  decide +kernel

theorem byteLength_first : byteLength "a@x.com" < UInt64.size := by decide +kernel

theorem byteLength_second : byteLength "b@x.com" < UInt64.size := by decide +kernel

/-- The code that the first owner hands out. -/
theorem byteLength_code : byteLength "00000002" < UInt64.size := by decide +kernel

/-- Both register before either confirms. -/
def acts : List Act :=
  [.call (.register ⟨"a@x.com", byteLength_first⟩ wallet none),
    .call (.register ⟨"b@x.com", byteLength_second⟩ wallet none),
    .call (.confirm first "00000000000000000000000000000001"),
    .call (.confirm second "00000000000000000000000000000003")]

end Shared

/-- Two owners can be confirmed with one wallet: both register it before either of them
confirms. -/
theorem shared_reachable :
    (contents ((World.start ⟨1700000000⟩ : World StoreKind.table.State).run { }
      Shared.acts).store).Shared := by
  unfold World.run Shared.acts
  simp only [List.foldl_cons, List.foldl_nil, World.act, Call.after, register,
    Shared.ofEmail_first, Shared.ofEmail_second]
  refine ⟨⟨Shared.first, "a@x.com", Shared.wallet, "00000000000000000000000000000001",
      ⟨1700000000⟩, some ⟨1700000000⟩, "00000002", none⟩,
    ⟨Shared.second, "b@x.com", Shared.wallet, "00000000000000000000000000000003",
      ⟨1700000000⟩, some ⟨1700000000⟩, "00000004", none⟩, ?_⟩
  unfold Contents.Holds
  decide +kernel

end Onboarding
