import Mathlib.Logic.Function.Basic
import Onboarding.Proofs.Owner
import Onboarding.Proofs.Schema.Binary
import Onboarding.Store.Basic
import Onboarding.Store.KeyTable
/-!
# Contents — what a store holds, whatever it holds it in

`Contents` is two partial maps: registrations by owner and referrals by receiver. The
writes of a store are restated on them, with the same refusals in the same words, so
that a claim about the service can be proved once and holds on every store.

`Contents.Coherent` is what every store keeps: records stand under their own keys,
their texts fit the stored form, and no two owners have one referral code.
-/

namespace Onboarding

/-- Bytes that may be a key. -/
def KeyTable.IsKey (k : Key) : Prop := k ≠ [] ∧ k.length ≤ KeyTable.maxKeyLength

/-- A text of a length that keys have is a key. -/
theorem isKey_of_byteLength {s : String} {n : Nat} (h : byteLength s = n) (hpos : 0 < n)
    (hmax : n ≤ KeyTable.maxKeyLength) : KeyTable.IsKey (Utf8.bytes s) := by
  have hlen : (Utf8.bytes s).length = n := h
  exact ⟨List.length_pos_iff.1 (hlen ▸ hpos), hlen ▸ hmax⟩

namespace Registration

/-- A registration whose texts can be stored, indexed and read back. -/
structure Storable (r : Registration) : Prop where
  owner : r.owner.IsHash
  email : byteLength r.email < UInt64.size
  address : KeyTable.IsKey (Utf8.bytes r.address.text)
  code : byteLength r.code < UInt64.size
  ownReferralCode : KeyTable.IsKey (Utf8.bytes r.ownReferralCode)
  referralCode : ∀ c, r.referralCode = some c → byteLength c < UInt64.size

/-- A text that fits a key fits a word. -/
theorem byteLength_lt_of_isKey {s : String} (h : KeyTable.IsKey (Utf8.bytes s)) :
    byteLength s < UInt64.size := by
  have hs : byteLength s ≤ KeyTable.maxKeyLength := h.2
  exact Nat.lt_of_le_of_lt hs (by decide)

theorem Storable.fits {r : Registration} (h : r.Storable) : schema.Fits r := by
  obtain ⟨owner, email, address, code, ownCode, inviter⟩ := h
  have howner : byteLength r.owner.text < UInt64.size := by rw [owner]; decide
  have haddress := byteLength_lt_of_isKey address
  have hown := byteLength_lt_of_isKey ownCode
  obtain ⟨o, e, a, c, t, u, oc, rc⟩ := r
  cases u <;> cases rc <;>
    simp_all [schema, Schema.Fits, Fields.Fits, Owner.schema, WalletAddress.schema,
      Timestamp.schema]

/-- A confirmation changes nothing that is stored as a text. -/
theorem Storable.confirmedAt {r : Registration} (h : r.Storable) (t : Option Timestamp) :
    { r with confirmedAt := t }.Storable :=
  ⟨h.owner, h.email, h.address, h.code, h.ownReferralCode, h.referralCode⟩

/-- What fits goes on to fit with another inviter, at another time. -/
theorem Storable.invite {r : Registration} (h : r.Storable) {inviter : Option String}
    (hfits : ∀ c, inviter = some c → byteLength c < UInt64.size) (time : Timestamp) :
    Storable { r with referralCode := inviter, createdAt := time } :=
  ⟨h.owner, h.email, h.address, h.code, h.ownReferralCode, hfits⟩

end Registration

namespace Referral

/-- A referral between owners can be stored. -/
structure Storable (f : Referral) : Prop where
  sender : f.sender.IsHash
  receiver : f.receiver.IsHash

theorem Storable.fits {f : Referral} (h : f.Storable) : schema.Fits f := by
  have hs : byteLength f.sender.text < UInt64.size := by rw [h.sender]; decide
  have hr : byteLength f.receiver.text < UInt64.size := by rw [h.receiver]; decide
  obtain ⟨s, r, status, at1, at2, at3, r1, r2⟩ := f
  have hstatus : status.toFin.val < UInt32.size := Nat.lt_trans status.toFin.isLt (by decide)
  cases at2 <;> cases at3 <;> cases r1 <;> cases r2 <;>
    simp_all [schema, Schema.Fits, Fields.Fits, Owner.schema, Timestamp.schema,
      TokenAmount.schema, ReferralStatus.schema]

theorem canMoveTo_installed {s : ReferralStatus} :
    s.canMoveTo .installed = true ↔ s = .registered := by
  cases s <;> decide

theorem canMoveTo_confirmed {s : ReferralStatus} :
    s.canMoveTo .confirmed = true ↔ s = .installed := by
  cases s <;> decide

/-- Only a referral at its start is installed. -/
theorem install_eq_ok {f f' : Referral} {t : Timestamp} : f.install t = .ok f' ↔
    f.status = .registered ∧ f' = { f with status := .installed, installedAt := some t } := by
  unfold install
  split <;> rename_i h
  · have hs := canMoveTo_installed.1 h
    exact ⟨fun he => ⟨hs, (Except.ok.inj he).symm⟩, fun he => congrArg Except.ok he.2.symm⟩
  · exact ⟨nofun, fun he => absurd (canMoveTo_installed.2 he.1) h⟩

/-- An installation keeps the parties. -/
theorem install_parties (t : Timestamp) (f f' : Referral) (h : f.install t = .ok f') :
    f'.receiver = f.receiver ∧ f'.sender = f.sender := by
  obtain ⟨-, rfl⟩ := install_eq_ok.1 h
  exact ⟨rfl, rfl⟩

/-- Only an installed referral is confirmed. -/
theorem confirm_eq_ok {f f' : Referral} {a b : TokenAmount} {t : Timestamp} :
    f.confirm a b t = .ok f' ↔ f.status = .installed ∧
      f' = { f with
        status := .confirmed
        confirmedAt := some t
        senderReward := some a
        receiverReward := some b } := by
  unfold confirm
  split <;> rename_i h
  · have hs := canMoveTo_confirmed.1 h
    exact ⟨fun he => ⟨hs, (Except.ok.inj he).symm⟩, fun he => congrArg Except.ok he.2.symm⟩
  · exact ⟨nofun, fun he => absurd (canMoveTo_confirmed.2 he.1) h⟩

/-- A confirmation keeps the parties. -/
theorem confirm_parties (a b : TokenAmount) (t : Timestamp) (f f' : Referral)
    (h : f.confirm a b t = .ok f') : f'.receiver = f.receiver ∧ f'.sender = f.sender := by
  obtain ⟨-, rfl⟩ := confirm_eq_ok.1 h
  exact ⟨rfl, rfl⟩

end Referral

/-- Registrations by owner and referrals by receiver. -/
structure Contents where
  registration : Owner → Option Registration
  referral : Owner → Option Referral

namespace Contents

/-- Nothing. -/
def empty : Contents := ⟨fun _ => none, fun _ => none⟩

/-- A registration in place of any other of its owner. -/
def put (c : Contents) (r : Registration) : Contents :=
  { c with registration := Function.update c.registration r.owner (some r) }

/-- A referral in place of any other of its receiver. -/
def refer (c : Contents) (f : Referral) : Contents :=
  { c with referral := Function.update c.referral f.receiver (some f) }

@[simp] theorem referral_put (c : Contents) (r : Registration) :
    (c.put r).referral = c.referral := rfl

@[simp] theorem registration_refer (c : Contents) (f : Referral) :
    (c.refer f).registration = c.registration := rfl

theorem registration_put (c : Contents) (r : Registration) (o : Owner) :
    (c.put r).registration o = if o = r.owner then some r else c.registration o := by
  simp [put, Function.update_apply]

theorem referral_refer (c : Contents) (f : Referral) (o : Owner) :
    (c.refer f).referral o = if o = f.receiver then some f else c.referral o := by
  simp [refer, Function.update_apply]

@[simp] theorem registration_put_self (c : Contents) (r : Registration) :
    (c.put r).registration r.owner = some r := by
  rw [registration_put, if_pos rfl]

@[simp] theorem referral_refer_self (c : Contents) (f : Referral) :
    (c.refer f).referral f.receiver = some f := by
  rw [referral_refer, if_pos rfl]

theorem registration_put_of_ne {c : Contents} {r : Registration} {o : Owner} (h : o ≠ r.owner) :
    (c.put r).registration o = c.registration o := by
  rw [registration_put, if_neg h]

theorem referral_refer_of_ne {c : Contents} {f : Referral} {o : Owner} (h : o ≠ f.receiver) :
    (c.refer f).referral o = c.referral o := by
  rw [referral_refer, if_neg h]

/-! ## Looking up -/

/-- A registration stands under its owner. -/
def Holds (c : Contents) (r : Registration) : Prop := c.registration r.owner = some r

/-- A referral stands under its receiver. -/
def Refers (c : Contents) (f : Referral) : Prop := c.referral f.receiver = some f

/-- A confirmed registration that a wallet is bound to. -/
def Binds (c : Contents) (a : WalletAddress) (r : Registration) : Prop :=
  c.Holds r ∧ r.isConfirmed = true ∧ r.address = a

/-- A registration whose owner hands out a code. -/
def HasCode (c : Contents) (code : String) (r : Registration) : Prop :=
  c.Holds r ∧ r.ownReferralCode = code

/-- No other owner hands out the code of a registration. -/
def CodeFree (c : Contents) (r : Registration) : Prop :=
  ∀ q, c.HasCode r.ownReferralCode q → q.owner = r.owner

/-- An owner has one registration. -/
theorem Holds.eq {c : Contents} {r q : Registration} (hr : c.Holds r) (hq : c.Holds q)
    (h : q.owner = r.owner) : q = r := by
  unfold Holds at hr hq
  rw [h, hr] at hq
  exact (Option.some_inj.1 hq).symm

/-- A registration stays when one is put for an owner who had none. -/
theorem registration_put_of_absent {c : Contents} {o : Owner} {q r : Registration}
    (hr : c.registration o = some r) (habsent : c.registration q.owner = none) :
    (c.put q).registration o = some r := by
  rw [registration_put_of_ne, hr]
  rintro rfl
  exact nomatch habsent.symm.trans hr

/-- A registration that is written over gives way, and every other one stays. -/
theorem registration_put_of_held {c : Contents} {o : Owner} {q q' r : Registration}
    (hr : c.registration o = some r) (hq : c.Holds q) (howner : q'.owner = q.owner) :
    r = q ∧ (c.put q').registration o = some q' ∨ (c.put q').registration o = some r := by
  rw [registration_put, howner]
  split
  · rename_i ho
    rw [ho, hq] at hr
    exact .inl ⟨(Option.some.inj hr).symm, rfl⟩
  · exact .inr hr

/-- A referral that is written over gives way, and every other one stays. -/
theorem referral_refer_of_held {c : Contents} {o : Owner} {f f' g : Referral}
    (hg : c.referral o = some g) (hf : c.Refers f) (hreceiver : f'.receiver = f.receiver) :
    g = f ∧ (c.refer f').referral o = some f' ∨ (c.refer f').referral o = some g := by
  rw [referral_refer, hreceiver]
  split
  · rename_i ho
    rw [ho, hf] at hg
    exact .inl ⟨(Option.some.inj hg).symm, rfl⟩
  · exact .inr hg

/-- A receiver has one referral. -/
theorem Refers.eq {c : Contents} {f g : Referral} (hf : c.Refers f) (hg : c.Refers g)
    (h : g.receiver = f.receiver) : g = f := by
  unfold Refers at hf hg
  rw [h, hf] at hg
  exact (Option.some_inj.1 hg).symm

theorem holds_put {c : Contents} {r q : Registration} :
    (c.put r).Holds q ↔ q = r ∨ (q.owner ≠ r.owner ∧ c.Holds q) := by
  unfold Holds
  rw [registration_put]
  split <;> rename_i h
  · rw [Option.some_inj]
    constructor
    · exact fun he => .inl he.symm
    · rintro (rfl | ⟨hne, -⟩)
      · rfl
      · exact absurd h hne
  · constructor
    · exact fun hq => .inr ⟨h, hq⟩
    · rintro (rfl | ⟨-, hq⟩)
      · exact absurd rfl h
      · exact hq

theorem refers_refer {c : Contents} {f g : Referral} :
    (c.refer f).Refers g ↔ g = f ∨ (g.receiver ≠ f.receiver ∧ c.Refers g) := by
  unfold Refers
  rw [referral_refer]
  split <;> rename_i h
  · rw [Option.some_inj]
    constructor
    · exact fun he => .inl he.symm
    · rintro (rfl | ⟨hne, -⟩)
      · rfl
      · exact absurd h hne
  · constructor
    · exact fun hg => .inr ⟨h, hg⟩
    · rintro (rfl | ⟨-, hg⟩)
      · exact absurd rfl h
      · exact hg

/-! ## The writes of a store -/

/-- What storing a registration comes to. -/
inductive Stores (c : Contents) (r : Registration) : Except StoreError Contents → Prop
  | stored (free : c.CodeFree r) : Stores c r (.ok (c.put r))
  | taken (h : ¬ c.CodeFree r) :
    Stores c r (.error (.duplicate ("referral code " ++ r.ownReferralCode)))

/-- What storing a registration that is confirmed from the start comes to. -/
inductive Creates (c : Contents) (r : Registration) : Except StoreError Contents → Prop
  | created (confirmed : r.isConfirmed = true) (absent : c.registration r.owner = none)
      (unbound : ∀ q, ¬ c.Binds r.address q) :
    Creates c r (.ok (c.put r))
  | unconfirmed (h : r.isConfirmed = false) :
    Creates c r (.error (.conflict ("request of " ++ r.owner.text ++ " is not confirmed")))
  | known {q : Registration} (h : c.registration r.owner = some q) :
    Creates c r (.error (.duplicate ("request of " ++ r.owner.text)))
  | bound {q : Registration} (h : c.Binds r.address q) :
    Creates c r (.error (.duplicate ("address " ++ r.address.text)))

/-- The contents with the registration of an owner confirmed. -/
def confirm (c : Contents) (o : Owner) (time : Timestamp) : Except StoreError Contents :=
  match c.registration o with
  | none => .error (.notFound ("request of " ++ o.text))
  | some r =>
    if r.isConfirmed then .error (.conflict ("request of " ++ o.text ++ " already confirmed"))
    else .ok (c.put { r with confirmedAt := some time })

/-- The contents with a referral started. -/
def startReferral (c : Contents) (sender receiver : Owner) (time : Timestamp) :
    Except StoreError Contents :=
  match c.referral receiver with
  | some _ => .error (.duplicate ("referral of " ++ receiver.text))
  | none => .ok (c.refer (.start sender receiver time))

/-- The contents with the referral of a receiver moved on. -/
def moveReferral (c : Contents) (receiver : Owner) (move : Referral → Except String Referral) :
    Except StoreError Contents :=
  match c.referral receiver with
  | none => .error (.notFound ("referral of " ++ receiver.text))
  | some f =>
    match move f with
    | .error reason => .error (.conflict reason)
    | .ok f' => .ok (c.refer f')

section Results

variable {c c' : Contents} {o : Owner} {time : Timestamp}

theorem confirm_eq_ok : c.confirm o time = .ok c' ↔
    ∃ r, c.registration o = some r ∧ r.isConfirmed = false ∧
      c' = c.put { r with confirmedAt := some time } := by
  unfold confirm
  cases hr : c.registration o with
  | none => simp
  | some r =>
    cases hconfirmed : r.isConfirmed with
    | true => simp [hconfirmed]
    | false =>
      simp only [hconfirmed, Bool.false_eq_true, if_false]
      constructor
      · intro h
        exact ⟨r, rfl, hconfirmed, (Except.ok.inj h).symm⟩
      · rintro ⟨q, hq, -, rfl⟩
        cases hq
        rfl

theorem startReferral_eq_ok {sender receiver : Owner} :
    c.startReferral sender receiver time = .ok c' ↔
      c.referral receiver = none ∧ c' = c.refer (.start sender receiver time) := by
  unfold startReferral
  cases hf : c.referral receiver with
  | none => exact ⟨fun h => ⟨rfl, (Except.ok.inj h).symm⟩, fun h => congrArg Except.ok h.2.symm⟩
  | some f => simp

theorem moveReferral_eq_ok {move : Referral → Except String Referral} :
    c.moveReferral o move = .ok c' ↔
      ∃ f f', c.referral o = some f ∧ move f = .ok f' ∧ c' = c.refer f' := by
  unfold moveReferral
  cases hf : c.referral o with
  | none => simp
  | some f =>
    cases hm : move f with
    | error reason => simp [hm]
    | ok f' =>
      constructor
      · intro h
        simp only [hm] at h
        cases h
        exact ⟨f, f', rfl, hm, rfl⟩
      · rintro ⟨g, g', hg, hm', rfl⟩
        cases hg
        rw [hm] at hm'
        cases hm'
        simp only [hm]

theorem stores_ok {r : Registration} (h : c.Stores r (.ok c')) : c.CodeFree r ∧ c' = c.put r := by
  cases h with
  | stored free => exact ⟨free, rfl⟩

theorem creates_ok {r : Registration} (h : c.Creates r (.ok c')) :
    c.registration r.owner = none ∧ (∀ q, ¬ c.Binds r.address q) ∧ c' = c.put r := by
  cases h with
  | created _ absent unbound => exact ⟨absent, unbound, rfl⟩

end Results

/-! ## Keys and codes -/

/-- Every registration stands under its owner. -/
def Keyed (c : Contents) : Prop := ∀ ⦃o r⦄, c.registration o = some r → r.owner = o

/-- No two owners hand out one code. -/
def CodesDiffer (c : Contents) : Prop :=
  ∀ ⦃p q⦄, c.Holds p → c.Holds q → p.ownReferralCode = q.ownReferralCode → p.owner = q.owner

section Kept

variable {c : Contents} {r : Registration}

/-- What a lookup by owner finds is held. -/
theorem Keyed.holds (hc : c.Keyed) {o : Owner} (h : c.registration o = some r) : c.Holds r := by
  have ho := hc h
  subst ho
  exact h

theorem Keyed.put (hc : c.Keyed) (r : Registration) : (c.put r).Keyed := by
  intro o q h
  rw [registration_put] at h
  split at h
  · cases h
    exact Eq.symm ‹_›
  · exact hc h

/-- Codes go on to differ when a registration is put whose code is free. -/
theorem CodesDiffer.put (hc : c.CodesDiffer) (hfree : c.CodeFree r) : (c.put r).CodesDiffer := by
  intro p q hp hq hcode
  rcases holds_put.1 hp with rfl | ⟨-, hp'⟩ <;> rcases holds_put.1 hq with rfl | ⟨-, hq'⟩
  · rfl
  · exact (hfree q ⟨hq', hcode.symm⟩).symm
  · exact hfree p ⟨hp', hcode⟩
  · exact hc hp' hq' hcode

/-- The code of a registration is free for whatever stands in its place. -/
theorem CodesDiffer.codeFree (hc : c.CodesDiffer) {q : Registration} (hr : c.Holds r)
    (howner : q.owner = r.owner) (hcode : q.ownReferralCode = r.ownReferralCode) :
    c.CodeFree q := by
  intro p hp
  rw [howner]
  exact hc hp.1 hr (hp.2.trans hcode)

end Kept

/-! ## Coherence -/

/-- What every store keeps of what it holds. -/
structure Coherent (c : Contents) : Prop where
  owner_eq : ∀ {o r}, c.registration o = some r → r.owner = o
  storable : ∀ {o r}, c.registration o = some r → r.Storable
  /-- No two owners hand out one code. -/
  code_injective : ∀ {p q}, c.Holds p → c.Holds q → p.ownReferralCode = q.ownReferralCode →
    p.owner = q.owner
  receiver_eq : ∀ {o f}, c.referral o = some f → f.receiver = o
  parties : ∀ {o f}, c.referral o = some f → f.Storable

namespace Coherent

variable {c : Contents}

theorem empty : Contents.empty.Coherent :=
  ⟨nofun, nofun, nofun, nofun, nofun⟩

theorem keyed (hc : c.Coherent) : c.Keyed := fun _ _ h => hc.owner_eq h

theorem codesDiffer (hc : c.Coherent) : c.CodesDiffer := fun _ _ hp hq h =>
  hc.code_injective hp hq h

/-- What a lookup by owner finds is held. -/
theorem holds (hc : c.Coherent) {o : Owner} {r : Registration} (h : c.registration o = some r) :
    c.Holds r := hc.keyed.holds h

/-- What a lookup by receiver finds stands under its receiver. -/
theorem refers (hc : c.Coherent) {o : Owner} {f : Referral} (h : c.referral o = some f) :
    c.Refers f := by
  have ho := hc.receiver_eq h
  subst ho
  exact h

/-- An owner that holds something is a hash. -/
theorem isHash (hc : c.Coherent) {o : Owner} {r : Registration} (h : c.registration o = some r) :
    o.IsHash :=
  hc.owner_eq h ▸ (hc.storable h).owner

/-- A registration whose code is free can be put. -/
theorem put (hc : c.Coherent) {r : Registration} (hr : r.Storable) (hfree : c.CodeFree r) :
    (c.put r).Coherent where
  owner_eq h := hc.keyed.put r h
  storable {o q} h := by
    rw [registration_put] at h
    split at h
    · cases h
      exact hr
    · exact hc.storable h
  code_injective hp hq hcode := hc.codesDiffer.put hfree hp hq hcode
  receiver_eq h := hc.receiver_eq h
  parties h := hc.parties h

/-- A referral between owners can be put. -/
theorem refer (hc : c.Coherent) {f : Referral} (hf : f.Storable) : (c.refer f).Coherent where
  owner_eq h := hc.owner_eq h
  storable h := hc.storable h
  code_injective hp hq := hc.code_injective hp hq
  receiver_eq {o g} h := by
    rw [referral_refer] at h
    split at h
    · cases h
      exact Eq.symm ‹_›
    · exact hc.receiver_eq h
  parties {o g} h := by
    rw [referral_refer] at h
    split at h
    · cases h
      exact hf
    · exact hc.parties h

/-- The code of a registration is free for whatever stands in its place. -/
theorem codeFree (hc : c.Coherent) {r q : Registration} (hr : c.Holds r)
    (howner : q.owner = r.owner) (hcode : q.ownReferralCode = r.ownReferralCode) :
    c.CodeFree q := hc.codesDiffer.codeFree hr howner hcode

end Coherent

end Contents

end Onboarding
