import Onboarding.Proofs.Store.Contents
/-!
# Lawful stores — what every operation does to the contents

A `StoreView` says what a state of a store holds, which states are sound, and which
operations are made to fail. A `LawfulStore` has one law for each operation that the
service uses: a read answers from the contents, and a write takes a sound state to a
sound state with the contents that `Contents` prescribes, or fails. Each law says when
the operation may break for a reason that is not in the contents: when it is made to
fail, or when it is asked for an empty key.
-/

namespace Onboarding

/-- What is seen of the states of a store. -/
class StoreView (σ : Type) where
  contents : σ → Contents
  /-- Nothing in the state contradicts its contents. -/
  Sound : σ → Prop
  /-- Operations that are made to fail. -/
  failing : σ → List StoreOp
  /-- The state in which these operations are made to fail, as far as the store
  allows it. -/
  failOn : List StoreOp → σ → σ

/-- The answer of a read that looks for a record, which it names `key` if it misses it. -/
inductive Search {α : Type} (key : String) (P : α → Prop) (mayBreak : Prop) :
    Except StoreError α → Prop
  | found {a : α} (h : P a) : Search key P mayBreak (.ok a)
  | missing (h : ∀ a, ¬ P a) : Search key P mayBreak (.error (.notFound key))
  | broken {reason : String} (h : mayBreak) : Search key P mayBreak (.error (.backend reason))

/-- The answer of a read that lists records. -/
inductive Listing {α : Type} (P : α → Prop) (mayBreak : Prop) :
    Except StoreError (List α) → Prop
  | listed {as : List α} (nodup : as.Nodup) (mem : ∀ a, a ∈ as ↔ P a) :
    Listing P mayBreak (.ok as)
  | broken {reason : String} (h : mayBreak) : Listing P mayBreak (.error (.backend reason))

/-- The outcome of a write on a state, given what it comes to on the contents. No write
of the service touches the denylist. -/
inductive Written {σ : Type} [Store σ] [StoreView σ] (s : σ)
    (outcome : Except StoreError Contents → Prop) (mayBreak : Prop) :
    Except StoreError Unit × σ → Prop
  | done {s' : σ} (sound : StoreView.Sound s') (holds : outcome (.ok (StoreView.contents s')))
      (failing : StoreView.failing s' = StoreView.failing s)
      (denylist : Store.isFraudDomain s' = Store.isFraudDomain s) :
    Written s outcome mayBreak (.ok (), s')
  | refused {e : StoreError} {s' : σ} (h : outcome (.error e)) :
    Written s outcome mayBreak (.error e, s')
  | broken {reason : String} {s' : σ} (h : mayBreak) :
    Written s outcome mayBreak (.error (.backend reason), s')

theorem Search.mono {α : Type} {key : String} {P : α → Prop} {p q : Prop}
    {x : Except StoreError α} (h : Search key P p x) (hpq : p → q) : Search key P q x := by
  cases h with
  | found h => exact .found h
  | missing h => exact .missing h
  | broken h => exact .broken (hpq h)

theorem Listing.mono {α : Type} {P : α → Prop} {p q : Prop} {x : Except StoreError (List α)}
    (h : Listing P p x) (hpq : p → q) : Listing P q x := by
  cases h with
  | listed nodup mem => exact .listed nodup mem
  | broken h => exact .broken (hpq h)

theorem Written.mono {σ : Type} [Store σ] [StoreView σ] {s : σ}
    {outcome : Except StoreError Contents → Prop} {p q : Prop} {out : Except StoreError Unit × σ}
    (h : Written s outcome p out) (hpq : p → q) : Written s outcome q out := by
  cases h with
  | done sound holds failing denylist => exact .done sound holds failing denylist
  | refused h => exact .refused h
  | broken h => exact .broken (hpq h)

/-- **A write goes through** where it comes to no error and cannot break. -/
theorem Written.eq_ok {σ : Type} [Store σ] [StoreView σ] {s : σ}
    {outcome : Except StoreError Contents → Prop} {mayBreak : Prop}
    {out : Except StoreError Unit × σ} (h : Written s outcome mayBreak out)
    (hrefused : ∀ e, ¬ outcome (.error e)) (hbroken : ¬ mayBreak) : ∃ s', out = (.ok (), s') := by
  cases h with
  | @done s' _ _ _ _ => exact ⟨s', rfl⟩
  | @refused e _ h => exact absurd h (hrefused e)
  | broken h => exact absurd h hbroken

open StoreView

/-- A store whose operations do to its contents what they are meant to do. -/
class LawfulStore (σ : Type) [Store σ] extends StoreView σ where
  sound_empty : Sound (Store.empty : σ)
  contents_empty : contents (Store.empty : σ) = .empty
  failing_empty : failing (Store.empty : σ) = []
  sound_failOn {s : σ} (ops : List StoreOp) : Sound s → Sound (failOn ops s)
  contents_failOn (ops : List StoreOp) (s : σ) : contents (failOn ops s) = contents s
  failing_failOn {op : StoreOp} (ops : List StoreOp) (s : σ) :
    op ∈ failing (failOn ops s) → op ∈ ops
  coherent {s : σ} : Sound s → (contents s).Coherent
  canBegin {s : σ} : .transaction ∉ failing s → Store.canBegin s = .ok ()
  registration {s : σ} (o : Owner) : Sound s →
    Search ("request of " ++ o.text) ((contents s).registration o = some ·)
      (.getRequest ∈ failing s ∨ o.text = "") (Store.registration s o)
  byAddress {s : σ} (a : WalletAddress) : Sound s →
    Search ("address " ++ a.text) ((contents s).Binds a)
      (.getByAddress ∈ failing s ∨ a.text = "") (Store.byAddress s a)
  byReferralCode {s : σ} (code : String) : Sound s →
    Search ("referral code " ++ code) ((contents s).HasCode code)
      (.getByReferralCode ∈ failing s ∨ code = "") (Store.byReferralCode s code)
  confirmedRegistrations {s : σ} : Sound s →
    Listing (fun r => (contents s).Holds r ∧ r.isConfirmed = true) (.iterConfirmed ∈ failing s)
      (Store.confirmedRegistrations s)
  referral {s : σ} (o : Owner) : Sound s →
    Search ("referral of " ++ o.text) ((contents s).referral o = some ·)
      (.getReferral ∈ failing s ∨ o.text = "") (Store.referral s o)
  referralsBySender {s : σ} {o : Owner} : Sound s → o.IsHash →
    Listing (fun f => (contents s).Refers f ∧ f.sender = o) (.referralsBySender ∈ failing s)
      (Store.referralsBySender s o)
  /-- Confirmed registrations are not overwritten. -/
  putRegistration {s : σ} {r : Registration} : Sound s → r.Storable →
    (∀ q, (contents s).registration r.owner = some q → q.isConfirmed = false) →
    Written s ((contents s).Stores r) (.setRequest ∈ failing s) (Store.putRegistration r s)
  confirmRegistration {s : σ} (o : Owner) (time : Timestamp) : Sound s →
    Written s (· = (contents s).confirm o time) (.setConfirmed ∈ failing s ∨ o.text = "")
      (Store.confirmRegistration o time s)
  /-- Not every store checks the code of a registration that is created confirmed. -/
  createConfirmed {s : σ} {r : Registration} : Sound s → r.Storable → (contents s).CodeFree r →
    Written s ((contents s).Creates r) (.createConfirmed ∈ failing s) (Store.createConfirmed r s)
  createReferral {s : σ} {sender receiver : Owner} (time : Timestamp) : Sound s →
    sender.IsHash → receiver.IsHash →
    Written s (· = (contents s).startReferral sender receiver time)
      (.createReferral ∈ failing s) (Store.createReferral sender receiver time s)
  installReferral {s : σ} (o : Owner) (time : Timestamp) : Sound s →
    Written s (· = (contents s).moveReferral o (·.install time))
      (.installReferral ∈ failing s ∨ o.text = "") (Store.installReferral o time s)
  confirmReferral {s : σ} (o : Owner) (senderReward receiverReward : TokenAmount)
      (time : Timestamp) : Sound s →
    Written s (· = (contents s).moveReferral o (·.confirm senderReward receiverReward time))
      (.confirmReferral ∈ failing s ∨ o.text = "")
      (Store.confirmReferral o senderReward receiverReward time s)

/-! ## Reads -/

namespace Search

variable {α : Type} {key : String} {P : α → Prop} {mayBreak : Prop} {x : Except StoreError α}

theorem of_ok {a : α} (h : Search key P mayBreak (.ok a)) : P a := by
  cases h
  assumption

theorem of_found {a : α} (h : Search key P mayBreak x) (hx : x = .ok a) : P a :=
  of_ok (hx ▸ h)

/-- Nothing was found only if there is nothing. -/
theorem of_missing (h : Search key P mayBreak x) (hx : Except.found? x = .ok none) (a : α) :
    ¬ P a := by
  cases h with
  | found _ => cases hx
  | missing h => exact h a
  | broken _ => cases hx

/-- What there is at most once is found. -/
theorem eq_ok {a : α} (h : Search key P mayBreak x) (ha : P a) (huniq : ∀ b, P b → b = a)
    (hsafe : ¬ mayBreak) : x = .ok a := by
  cases h with
  | found hb => exact congrArg _ (huniq _ hb)
  | missing h => exact absurd ha (h a)
  | broken h => exact absurd h hsafe

/-- What there is not is missed. -/
theorem eq_missing (h : Search key P mayBreak x) (hnone : ∀ a, ¬ P a) (hsafe : ¬ mayBreak) :
    x = .error (.notFound key) := by
  cases h with
  | found ha => exact absurd ha (hnone _)
  | missing _ => rfl
  | broken h => exact absurd h hsafe

end Search

/-- A list is given where nothing breaks. -/
theorem Listing.eq_ok {α : Type} {P : α → Prop} {mayBreak : Prop} {x : Except StoreError (List α)}
    (h : Listing P mayBreak x) (hsafe : ¬ mayBreak) :
    ∃ as, x = .ok as ∧ as.Nodup ∧ ∀ a, a ∈ as ↔ P a := by
  cases h with
  | listed nodup mem => exact ⟨_, rfl, nodup, mem⟩
  | broken h => exact absurd h hsafe

/-! ## A store that does not fail -/

namespace LawfulStore

variable {σ : Type} [Store σ] [LawfulStore σ] {s : σ}

/-- Nothing breaks where nothing is made to fail and no key is empty. -/
theorem not_broken (hsafe : failing s = []) {op : StoreOp} {o : Owner} (ho : o.IsHash) :
    ¬ (op ∈ failing s ∨ o.text = "") := by
  rintro (h | h)
  · rw [hsafe] at h
    cases h
  · exact ho.text_ne h

/-- A registration that is held is found. -/
theorem registration_eq_ok (hs : Sound s) (hsafe : failing s = []) {o : Owner} {r : Registration}
    (hr : (contents s).registration o = some r) : Store.registration s o = .ok r := by
  have ho : o.IsHash := (coherent hs).isHash hr
  refine (registration o hs).eq_ok hr (fun q hq => ?_) (not_broken hsafe ho)
  exact Option.some_inj.1 (hq.symm.trans hr)

/-- A referral that is held is found. -/
theorem referral_eq_ok (hs : Sound s) (hsafe : failing s = []) {o : Owner} {f : Referral}
    (hf : (contents s).referral o = some f) : Store.referral s o = .ok f := by
  have ho : o.IsHash := by
    rw [← (coherent hs).receiver_eq hf]
    exact ((coherent hs).parties hf).receiver
  refine (referral o hs).eq_ok hf (fun g hg => ?_) (not_broken hsafe ho)
  exact Option.some_inj.1 (hg.symm.trans hf)

/-- The referrals of a sender are counted. -/
theorem confirmedReferralCount_eq_ok (hs : Sound s) (hsafe : failing s = []) {o : Owner}
    (ho : o.IsHash) : ∃ n, Store.confirmedReferralCount s o = .ok n := by
  obtain ⟨fs, hfs, -, -⟩ :=
    (referralsBySender hs ho).eq_ok (by rw [hsafe]; exact List.not_mem_nil)
  unfold Store.confirmedReferralCount
  rw [hfs]
  exact ⟨_, rfl⟩

/-- Who has a referral is known by a hash. -/
theorem isHash_of_referral (hs : Sound s) {o : Owner} {f : Referral}
    (hf : (contents s).referral o = some f) : o.IsHash := by
  rw [← (coherent hs).receiver_eq hf]
  exact ((coherent hs).parties hf).receiver

/-- A referral moves on where moving is not made to fail and its status allows it. -/
theorem moveReferral_eq_ok (hs : Sound s) {op : StoreOp} (hquiet : op ∉ failing s) {o : Owner}
    {f f' : Referral} (hf : (contents s).referral o = some f)
    {move : Referral → Except String Referral} (hmove : move f = .ok f') {write : StoreM σ Unit}
    (hwritten : Written s (· = (contents s).moveReferral o move) (op ∈ failing s ∨ o.text = "")
      (write s)) :
    ∃ s', write s = (.ok (), s') := by
  have hmoved := Contents.moveReferral_eq_ok.2 ⟨f, f', hf, hmove, rfl⟩
  have hbroken := not_or.2 ⟨hquiet, (isHash_of_referral hs hf).text_ne⟩
  refine hwritten.eq_ok (fun e h => ?_) hbroken
  cases h.trans hmoved

/-- A referral at its start is installed. -/
theorem installReferral_eq_ok (hs : Sound s) (hquiet : .installReferral ∉ failing s) {o : Owner}
    {f : Referral} (hf : (contents s).referral o = some f) (hstart : f.status = .registered)
    (time : Timestamp) : ∃ s', Store.installReferral o time s = (.ok (), s') :=
  moveReferral_eq_ok hs hquiet hf (Referral.install_eq_ok.2 ⟨hstart, rfl⟩)
    (installReferral o time hs)

/-- A referral in `installed` moves on. -/
theorem confirmReferral_eq_ok (hs : Sound s) (hquiet : .confirmReferral ∉ failing s) {o : Owner}
    {f : Referral} (hf : (contents s).referral o = some f) (hinstalled : f.status = .installed)
    (a b : TokenAmount) (time : Timestamp) :
    ∃ s', Store.confirmReferral o a b time s = (.ok (), s') :=
  moveReferral_eq_ok hs hquiet hf (Referral.confirm_eq_ok.2 ⟨hinstalled, rfl⟩)
    (confirmReferral o a b time hs)

end LawfulStore

end Onboarding
