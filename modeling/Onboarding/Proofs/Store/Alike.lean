import Onboarding.Proofs.Counts
import Onboarding.Proofs.Domain
import Onboarding.Proofs.Matched
import Onboarding.Proofs.Store.Lawful
/-!
# Alike — states of two stores that the service cannot tell apart

Two sound states of two lawful stores that hold the same contents, fail in nothing and
have the same denylist are `Alike`. The laws leave a store almost no choice: a record that
there is once is found by both, and a write that comes to one thing comes to it in both
(`Alike.written`). Where they leave one, as to which of two registrations an address is
bound to and in which order records are listed, nothing that the service does depends on it.
-/

namespace Onboarding

open StoreView

section Answers

variable {α : Type} {P : α → Prop} {p q : Prop}

/-- What there is at most once is answered in the same way. -/
theorem Search.eq {key : String} {x y : Except StoreError α} (hx : Search key P p x)
    (hy : Search key P q y) (hp : ¬ p) (hq : ¬ q) (huniq : ∀ a b, P a → P b → a = b) : x = y := by
  cases hx with
  | found ha =>
    cases hy with
    | found hb => exact congrArg Except.ok (huniq _ _ ha hb)
    | missing h => exact absurd ha (h _)
    | broken h => exact absurd h hq
  | missing h =>
    cases hy with
    | found hb => exact absurd hb (h _)
    | missing _ => rfl
    | broken h => exact absurd h hq
  | broken h => exact absurd h hp

/-- Nothing is made of a search for what is not there, be it missing or its key no key. -/
theorem Search.toOption_eq_none {key : String} {x : Except StoreError α} (h : Search key P p x)
    (hnone : ∀ a, ¬ P a) : x.toOption = none := by
  cases h with
  | found ha => exact absurd ha (hnone _)
  | missing _ => rfl
  | broken _ => rfl

/-- Two stores list the same records, each in its order. -/
theorem Listing.map_eq {β : Type} {x y : Except StoreError (List α)} (hx : Listing P p x)
    (hy : Listing P q y) (hp : ¬ p) (hq : ¬ q) {f : List α → β}
    (hf : ∀ as bs : List α, as.Perm bs → f as = f bs) : x.map f = y.map f := by
  obtain ⟨as, rfl, has, hmem⟩ := hx.eq_ok hp
  obtain ⟨bs, rfl, hbs, hmem'⟩ := hy.eq_ok hq
  have hperm : as.Perm bs :=
    (List.perm_ext_iff_of_nodup has hbs).2 fun a => (hmem a).trans (hmem' a).symm
  exact congrArg Except.ok (hf as bs hperm)

end Answers

/-- States of two stores with the same contents and the same denylist. -/
structure Alike {σ τ : Type} [Store σ] [Store τ] [LawfulStore σ] [LawfulStore τ] (s : σ) (t : τ) :
    Prop where
  soundLeft : Sound s
  soundRight : Sound t
  quietLeft : failing s = []
  quietRight : failing t = []
  contents_eq : contents s = contents t
  denylist : ∀ cs, IsPlainDomain cs →
    Store.isFraudDomain s (String.ofList cs) = Store.isFraudDomain t (String.ofList cs)

/-- Nothing breaks where nothing is made to fail, but for a key that is no key. -/
theorem Alike.not_broken {σ : Type} [StoreView σ] {s : σ} (hsafe : failing s = []) {op : StoreOp}
    {q : Prop} (hq : ¬ q) : ¬ (op ∈ failing s ∨ q) := by
  rintro (h | h)
  · rw [hsafe] at h
    cases h
  · exact hq h

namespace Alike

variable {σ τ : Type} [Store σ] [Store τ] [LawfulStore σ] [LawfulStore τ] {s : σ} {t : τ}

theorem coherent (h : Alike s t) : (contents s).Coherent := LawfulStore.coherent h.soundLeft

theorem not_failing_left (h : Alike s t) (op : StoreOp) : op ∉ failing s := by
  rw [h.quietLeft]
  exact List.not_mem_nil

theorem not_failing_right (h : Alike s t) (op : StoreOp) : op ∉ failing t := by
  rw [h.quietRight]
  exact List.not_mem_nil

/-! ## Reads -/

/-- **A search for what there is once** is answered in the same way by both stores. -/
theorem searched (h : Alike s t) {α : Type} {key : String} {P : Contents → α → Prop} {p q : Prop}
    {x y : Except StoreError α} (hx : Search key (P (contents s)) p x)
    (hy : Search key (P (contents t)) q y) (hp : ¬ p) (hq : ¬ q)
    (huniq : ∀ a b, P (contents s) a → P (contents s) b → a = b) : x = y := by
  rw [← h.contents_eq] at hy
  exact hx.eq hy hp hq huniq

/-- A search for what is not there gives nothing in either store, be it for a key that is
no key. -/
theorem searched_none (h : Alike s t) {α : Type} {key : String} {P : Contents → α → Prop}
    {p q : Prop} {x y : Except StoreError α} (hx : Search key (P (contents s)) p x)
    (hy : Search key (P (contents t)) q y) (hnone : ∀ a, ¬ P (contents s) a) :
    x.toOption = y.toOption := by
  rw [← h.contents_eq] at hy
  rw [hx.toOption_eq_none hnone, hy.toOption_eq_none hnone]

section Reads

variable (h : Alike s t)
include h

theorem registration {o : Owner} (ho : o.text ≠ "") :
    Store.registration s o = Store.registration t o := by
  refine h.searched (P := fun c => (c.registration o = some ·))
    (LawfulStore.registration o h.soundLeft) (LawfulStore.registration o h.soundRight)
    (not_broken h.quietLeft ho) (not_broken h.quietRight ho) fun a b ha hb => ?_
  exact Option.some_inj.1 (ha.symm.trans hb)

theorem referral {o : Owner} (ho : o.text ≠ "") : Store.referral s o = Store.referral t o := by
  refine h.searched (P := fun c => (c.referral o = some ·))
    (LawfulStore.referral o h.soundLeft) (LawfulStore.referral o h.soundRight)
    (not_broken h.quietLeft ho) (not_broken h.quietRight ho) fun a b ha hb => ?_
  exact Option.some_inj.1 (ha.symm.trans hb)

/-- Every owner has the same registration in both stores, or none in either. -/
theorem registration_toOption (o : Owner) :
    (Store.registration s o).toOption = (Store.registration t o).toOption := by
  by_cases ho : o.text = ""
  · have hnone : ∀ r, (contents s).registration o ≠ some r := fun r hr =>
      (h.coherent.isHash hr).text_ne ho
    exact h.searched_none (P := fun c => (c.registration o = some ·))
      (LawfulStore.registration o h.soundLeft) (LawfulStore.registration o h.soundRight) hnone
  · rw [h.registration ho]

theorem referral_toOption (o : Owner) :
    (Store.referral s o).toOption = (Store.referral t o).toOption := by
  by_cases ho : o.text = ""
  · have hnone : ∀ f, (contents s).referral o ≠ some f := by
      intro f hf
      have hreceiver := (h.coherent.parties hf).receiver
      rw [h.coherent.receiver_eq hf] at hreceiver
      exact hreceiver.text_ne ho
    exact h.searched_none (P := fun c => (c.referral o = some ·))
      (LawfulStore.referral o h.soundLeft) (LawfulStore.referral o h.soundRight) hnone
  · rw [h.referral ho]

theorem byReferralCode {code : String} (hcode : code ≠ "") :
    Store.byReferralCode s code = Store.byReferralCode t code := by
  refine h.searched (P := fun c => c.HasCode code)
    (LawfulStore.byReferralCode code h.soundLeft) (LawfulStore.byReferralCode code h.soundRight)
    (not_broken h.quietLeft hcode) (not_broken h.quietRight hcode) fun a b ha hb => ?_
  -- no two owners hand out one code
  exact hb.1.eq ha.1 (h.coherent.code_injective ha.1 hb.1 (ha.2.trans hb.2.symm))

/-- Both stores bind an address, perhaps to different owners, or neither does. -/
theorem byAddress {a : WalletAddress} (ha : a.text ≠ "") :
    (∃ p q, Store.byAddress s a = .ok p ∧ Store.byAddress t a = .ok q ∧
        (contents s).Binds a p ∧ (contents s).Binds a q) ∨
      ∃ key, Store.byAddress s a = .error (.notFound key) ∧
        Store.byAddress t a = .error (.notFound key) ∧ ∀ q, ¬ (contents s).Binds a q := by
  have hleft := LawfulStore.byAddress a h.soundLeft
  have hright := LawfulStore.byAddress a h.soundRight
  rw [← h.contents_eq] at hright
  by_cases hbound : ∃ q, (contents s).Binds a q
  · left
    obtain ⟨q, hq⟩ := hbound
    generalize Store.byAddress s a = x at hleft ⊢
    generalize Store.byAddress t a = y at hright ⊢
    cases hleft with
    | broken hbroken => exact absurd hbroken (not_broken h.quietLeft ha)
    | missing hnone => exact absurd hq (hnone q)
    | @found p hp =>
      cases hright with
      | broken hbroken => exact absurd hbroken (not_broken h.quietRight ha)
      | missing hnone => exact absurd hq (hnone q)
      | @found p' hp' => exact ⟨p, p', rfl, rfl, hp, hp'⟩
  · have hnone := not_exists.1 hbound
    exact .inr ⟨_, hleft.eq_missing hnone (not_broken h.quietLeft ha),
      hright.eq_missing hnone (not_broken h.quietRight ha), hnone⟩

theorem canBegin : Store.canBegin s = .ok () ∧ Store.canBegin t = .ok () :=
  ⟨LawfulStore.canBegin (h.not_failing_left _), LawfulStore.canBegin (h.not_failing_right _)⟩

/-- What counts the confirmed registrations counts them in any order. -/
theorem confirmedRegistrations_map {β : Type} {f : List Registration → β}
    (hf : ∀ rs rs' : List Registration, rs.Perm rs' → f rs = f rs') :
    (Store.confirmedRegistrations s).map f = (Store.confirmedRegistrations t).map f := by
  have hright := LawfulStore.confirmedRegistrations h.soundRight
  rw [← h.contents_eq] at hright
  exact (LawfulStore.confirmedRegistrations h.soundLeft).map_eq hright (h.not_failing_left _)
    (h.not_failing_right _) hf

theorem confirmedTotal : Store.confirmedTotal s = Store.confirmedTotal t :=
  h.confirmedRegistrations_map fun _ _ hperm => hperm.length_eq

theorem confirmedByDay : Store.confirmedByDay s = Store.confirmedByDay t :=
  h.confirmedRegistrations_map fun _ _ => countByDay_perm

/-- What counts the referrals of a sender counts them in any order. -/
theorem referralsBySender_map {β : Type} {o : Owner} (ho : o.IsHash) {f : List Referral → β}
    (hf : ∀ fs fs' : List Referral, fs.Perm fs' → f fs = f fs') :
    (Store.referralsBySender s o).map f = (Store.referralsBySender t o).map f := by
  have hright := LawfulStore.referralsBySender h.soundRight ho
  rw [← h.contents_eq] at hright
  exact (LawfulStore.referralsBySender h.soundLeft ho).map_eq hright (h.not_failing_left _)
    (h.not_failing_right _) hf

theorem confirmedReferralCount {o : Owner} (ho : o.IsHash) :
    Store.confirmedReferralCount s o = Store.confirmedReferralCount t o :=
  h.referralsBySender_map ho fun _ _ hperm => hperm.countP_eq _

theorem referralStats {o : Owner} (ho : o.IsHash) :
    Store.referralStats s o = Store.referralStats t o :=
  h.referralsBySender_map ho fun _ _ => ReferralStats.ofList_perm

theorem isFraudEmail {email : String} (hemail : ∀ c ∈ email.toList, isBlank c = false) :
    Store.isFraudEmail s email = Store.isFraudEmail t email :=
  Store.isFraudEmail_congr h.denylist hemail

end Reads

/-! ## Writes -/

/-- **A write that comes to one thing** comes to the same in both stores. -/
theorem written (h : Alike s t) {P : Contents → Except StoreError Contents → Prop}
    {p q : Prop} {out : Except StoreError Unit × σ} {out' : Except StoreError Unit × τ}
    (hout : Written s (P (contents s)) p out) (hout' : Written t (P (contents t)) q out')
    (hp : ¬ p) (hq : ¬ q) (hone : ∀ x y, P (contents s) x → P (contents s) y → x = y) :
    Matched Alike (fun _ _ => True) out out' := by
  rw [← h.contents_eq] at hout'
  cases hout with
  | broken hbroken => exact absurd hbroken hp
  | done sound holds failing denylist =>
    cases hout' with
    | broken hbroken => exact absurd hbroken hq
    | refused refused => cases hone _ _ holds refused
    | done sound' holds' failing' denylist' =>
      refine .ok ⟨sound, sound', failing.trans h.quietLeft, failing'.trans h.quietRight,
        Except.ok.inj (hone _ _ holds holds'), ?_⟩
      rw [denylist, denylist']
      exact h.denylist
  | refused refused =>
    cases hout' with
    | broken hbroken => exact absurd hbroken hq
    | done _ holds' _ _ => cases hone _ _ holds' refused
    | refused refused' =>
      cases hone _ _ refused refused'
      exact .error trivial

/-- A write that comes to a result is one of them. -/
theorem written_eq (h : Alike s t) {f : Contents → Except StoreError Contents} {p q : Prop}
    {out : Except StoreError Unit × σ} {out' : Except StoreError Unit × τ}
    (hout : Written s (· = f (contents s)) p out)
    (hout' : Written t (· = f (contents t)) q out') (hp : ¬ p) (hq : ¬ q) :
    Matched Alike (fun _ _ => True) out out' :=
  h.written (P := fun c x => x = f c) hout hout' hp hq fun _ _ hx hy => hx.trans hy.symm

section Writes

variable (h : Alike s t)
include h

theorem putRegistration {r : Registration} (hr : r.Storable)
    (hopen : ∀ q, (contents s).registration r.owner = some q → q.isConfirmed = false) :
    Matched Alike (fun _ _ => True) (Store.putRegistration r s) (Store.putRegistration r t) := by
  refine h.written (P := fun c => c.Stores r)
    (LawfulStore.putRegistration h.soundLeft hr hopen)
    (LawfulStore.putRegistration h.soundRight hr (h.contents_eq ▸ hopen))
    (h.not_failing_left _) (h.not_failing_right _) fun x y hx hy => ?_
  -- the code is free or it is taken
  cases hx with
  | stored free =>
    cases hy with
    | stored _ => rfl
    | taken htaken => exact absurd free htaken
  | taken htaken =>
    cases hy with
    | stored free => exact absurd free htaken
    | taken _ => rfl

/-- A registration that nothing stands in the way of is created in both. -/
theorem createConfirmed {r : Registration} (hr : r.Storable) (hfree : (contents s).CodeFree r)
    (hconfirmed : r.isConfirmed = true) (habsent : (contents s).registration r.owner = none)
    (hunbound : ∀ q, ¬ (contents s).Binds r.address q) :
    Matched Alike (fun _ _ => True) (Store.createConfirmed r s) (Store.createConfirmed r t) := by
  have hone : ∀ x, (contents s).Creates r x → x = .ok ((contents s).put r) := by
    intro x hx
    cases hx with
    | created _ _ _ => rfl
    | unconfirmed hopen => cases hopen.symm.trans hconfirmed
    | known hknown => cases habsent.symm.trans hknown
    | bound hbound => exact absurd hbound (hunbound _)
  exact h.written (P := fun c => c.Creates r)
    (LawfulStore.createConfirmed h.soundLeft hr hfree)
    (LawfulStore.createConfirmed h.soundRight hr (h.contents_eq ▸ hfree))
    (h.not_failing_left _) (h.not_failing_right _)
    fun x y hx hy => (hone x hx).trans (hone y hy).symm

theorem confirmRegistration {o : Owner} (ho : o.text ≠ "") (time : Timestamp) :
    Matched Alike (fun _ _ => True) (Store.confirmRegistration o time s)
      (Store.confirmRegistration o time t) :=
  h.written_eq (f := (·.confirm o time)) (LawfulStore.confirmRegistration o time h.soundLeft)
    (LawfulStore.confirmRegistration o time h.soundRight) (not_broken h.quietLeft ho)
    (not_broken h.quietRight ho)

theorem createReferral {sender receiver : Owner} (hsender : sender.IsHash)
    (hreceiver : receiver.IsHash) (time : Timestamp) :
    Matched Alike (fun _ _ => True) (Store.createReferral sender receiver time s)
      (Store.createReferral sender receiver time t) :=
  h.written_eq (f := (·.startReferral sender receiver time))
    (LawfulStore.createReferral time h.soundLeft hsender hreceiver)
    (LawfulStore.createReferral time h.soundRight hsender hreceiver) (h.not_failing_left _)
    (h.not_failing_right _)

theorem installReferral {o : Owner} (ho : o.text ≠ "") (time : Timestamp) :
    Matched Alike (fun _ _ => True) (Store.installReferral o time s)
      (Store.installReferral o time t) :=
  h.written_eq (f := (·.moveReferral o (·.install time)))
    (LawfulStore.installReferral o time h.soundLeft)
    (LawfulStore.installReferral o time h.soundRight) (not_broken h.quietLeft ho)
    (not_broken h.quietRight ho)

theorem confirmReferral {o : Owner} (ho : o.text ≠ "") (senderReward receiverReward : TokenAmount)
    (time : Timestamp) :
    Matched Alike (fun _ _ => True) (Store.confirmReferral o senderReward receiverReward time s)
      (Store.confirmReferral o senderReward receiverReward time t) :=
  h.written_eq (f := (·.moveReferral o (·.confirm senderReward receiverReward time)))
    (LawfulStore.confirmReferral o senderReward receiverReward time h.soundLeft)
    (LawfulStore.confirmReferral o senderReward receiverReward time h.soundRight)
    (not_broken h.quietLeft ho) (not_broken h.quietRight ho)

end Writes

end Alike

end Onboarding
