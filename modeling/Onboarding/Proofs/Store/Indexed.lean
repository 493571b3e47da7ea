import Onboarding.Proofs.Store.Filed
/-!
# The indexed store is lawful

Its contents are the records of two tables. `Sound` adds to what is filed that the index
of addresses names, for every address of a confirmed registration, one that is confirmed
with it. A write keeps this up as long as it overwrites no confirmed registration, and
`Filing.written` derives all laws of writing from that.
-/

namespace Onboarding

namespace IndexedStore

/-- The tables of records are such, and the indexes agree with them. -/
structure Sound (s : IndexedStore) : Prop where
  registrations : Records Registration.schema (fun r => ownerKey r.owner) Registration.Storable
    s.registrations
  referrals : Records Referral.schema (fun f => ownerKey f.receiver) Referral.Storable s.referrals
  codes : ∀ (k : Key) v, s.referralCodes[k]? = some v ↔
    ∃ r, s.view.Holds r ∧ k = Utf8.bytes r.ownReferralCode ∧ v = ownerKey r.owner
  /-- An indexed address is that of a confirmed registration. -/
  bound : ∀ (k : Key) v, s.addresses[k]? = some v →
    ∃ r, s.view.Holds r ∧ r.isConfirmed = true ∧ k = Utf8.bytes r.address.text ∧
      v = ownerKey r.owner
  /-- The address of a confirmed registration is indexed. -/
  indexed : ∀ r, s.view.Holds r → r.isConfirmed = true →
    ∃ v, s.addresses[Utf8.bytes r.address.text]? = some v
  pairs : ∀ (k : Key) v, s.referralsBySender[k]? = some v ↔
    ∃ f, s.view.Refers f ∧ k = pairKey f.sender f.receiver ∧ v = []

instance : StoreView IndexedStore where
  contents := view
  Sound := Sound
  failing _ := []
  failOn _ s := s

namespace Sound

variable {s : IndexedStore} {r : Registration}

theorem filed (hs : Sound s) : Filed s := ⟨hs.registrations, hs.referrals, hs.codes, hs.pairs⟩

/-! ## Writing registrations -/

/-- The index of addresses tells of confirmed registrations beside the new one, too. -/
theorem bound_withRegistration (hs : Sound s)
    (hold : ∀ q, s.view.registration r.owner = some q → q.isConfirmed = false) {k : Key}
    {v : List UInt8} (h : (s.withRegistration r).addresses[k]? = some v) :
    ∃ q, (s.view.put r).Holds q ∧ q.isConfirmed = true ∧ k = Utf8.bytes q.address.text ∧
      v = ownerKey q.owner := by
  have hother : ∀ h : s.addresses[k]? = some v, ∃ q, (s.view.put r).Holds q ∧
      q.isConfirmed = true ∧ k = Utf8.bytes q.address.text ∧ v = ownerKey q.owner := by
    intro h
    obtain ⟨q, hq, hconfirmed, hkq⟩ := hs.bound k v h
    -- a confirmed registration is another owner's, and so stays
    have hne : q.owner ≠ r.owner := by
      intro howner
      have hheld := hq
      rw [Contents.Holds, howner] at hheld
      rw [hold q hheld] at hconfirmed
      cases hconfirmed
    exact ⟨q, Contents.holds_put.2 (.inr ⟨hne, hq⟩), hconfirmed, hkq⟩
  simp only [IndexedStore.withRegistration] at h
  split at h
  · rename_i hconfirmed
    rw [KeyedMap.getElem?_insert] at h
    split at h
    · rename_i hk
      cases h
      exact ⟨r, Contents.holds_put.2 (.inl rfl), hconfirmed, hk, rfl⟩
    · exact hother h
  · exact hother h

/-- Every confirmed registration is in the index of addresses, the new one included. -/
theorem indexed_withRegistration (hs : Sound s) {q : Registration} (hq : (s.view.put r).Holds q)
    (hconfirmed : q.isConfirmed = true) :
    ∃ v, (s.withRegistration r).addresses[Utf8.bytes q.address.text]? = some v := by
  simp only [IndexedStore.withRegistration]
  rcases Contents.holds_put.1 hq with rfl | ⟨-, hq⟩
  · rw [if_pos hconfirmed, KeyedMap.getElem?_insert, if_pos rfl]
    exact ⟨_, rfl⟩
  · obtain ⟨v, hv⟩ := hs.indexed q hq hconfirmed
    split
    · rw [KeyedMap.getElem?_insert]
      split
      · exact ⟨_, rfl⟩
      · exact ⟨v, hv⟩
    · exact ⟨v, hv⟩
/-- **A registration and its index entries keep the store sound**, if its code is free
and it replaces none that is confirmed. -/
theorem withRegistration (hs : Sound s) (hr : r.Storable)
    (hold : ∀ q, s.view.registration r.owner = some q → q.isConfirmed = false)
    (hfree : s.view.CodeFree r) : Sound (s.withRegistration r) := by
  have hview := view_withRegistration s hr.fits
  have hfiled := hs.filed.withRegistration hr hfree
  refine ⟨hfiled.registrations, hfiled.referrals, hfiled.codes, ?_, ?_, hfiled.pairs⟩
  · intro k v h
    rw [hview]
    exact hs.bound_withRegistration hold h
  · intro q hq hconfirmed
    rw [hview] at hq
    exact hs.indexed_withRegistration hq hconfirmed

/-- What creating a confirmed registration comes to: the index of addresses tells which
wallets are bound. -/
theorem creates (hs : Sound s) (hfree : s.view.CodeFree r) {x : Except StoreError Contents}
    (h : s.Creates r x) : s.view.Creates r x := by
  cases h with
  | created confirmed absent unbound =>
    refine .created confirmed absent ?_
    rintro q ⟨hq, hqconfirmed, ha⟩
    obtain ⟨v, hv⟩ := hs.indexed q hq hqconfirmed
    rw [ha] at hv
    exact nomatch unbound.symm.trans hv
  | unconfirmed h => exact .unconfirmed h
  | known h => exact .known h
  | bound h =>
    obtain ⟨q, hq, hqconfirmed, hk, -⟩ := hs.bound _ _ h
    exact .bound ⟨hq, hqconfirmed, WalletAddress.text_inj.1 (Utf8.bytes_inj.1 hk).symm⟩
  | taken h => exact absurd hfree h

/-! ## Writing referrals -/

/-- A referral keeps the store sound if the index of pairs follows it. -/
theorem withReferral (hs : Sound s) {f : Referral} (hf : f.Storable) {pairs : KeyTable}
    (hpairs : ∀ (k : Key) v, pairs[k]? = some v ↔
      ∃ g, (s.view.refer f).Refers g ∧ k = pairKey g.sender g.receiver ∧ v = []) :
    Sound (s.withReferral f pairs) := by
  have hfiled := hs.filed.withReferral hf hpairs
  exact ⟨hfiled.registrations, hfiled.referrals, hfiled.codes, hs.bound, hs.indexed, hfiled.pairs⟩

end Sound

/-- **What is filed is written**, as long as no confirmed registration is replaced. -/
theorem Filing.written {s : IndexedStore} {outcome : Except StoreError Contents → Prop}
    {mayBreak : Prop} {out : Except StoreError Unit × IndexedStore}
    (h : Filing s s.SparesConfirmed outcome mayBreak out) (hs : Sound s) :
    Written s outcome mayBreak out := by
  cases h with
  | registration storable free among holds =>
    refine .done (hs.withRegistration storable among free) ?_ rfl rfl
    show outcome (.ok (s.withRegistration _).view)
    rwa [view_withRegistration s storable.fits]
  | referral storable follows holds =>
    refine .done (hs.withReferral storable follows) ?_ rfl rfl
    show outcome (.ok (s.withReferral _ _).view)
    rwa [view_withReferral s storable]
  | refused h => exact .refused h
  | broken h => exact .broken h

/-! ## The laws -/

theorem sound_empty : Sound (Store.empty : IndexedStore) := by
  refine ⟨filed_empty.registrations, filed_empty.referrals, filed_empty.codes, fun k v h => ?_,
    fun r hr => ?_, filed_empty.pairs⟩
  · simp [Store.empty, IndexedStore.empty] at h
  · rw [view_empty] at hr
    cases hr

instance : LawfulStore IndexedStore where
  sound_empty := sound_empty
  contents_empty := view_empty
  failing_empty := rfl
  sound_failOn _ hs := hs
  contents_failOn _ _ := rfl
  failing_failOn _ _ h := absurd h List.not_mem_nil
  coherent hs := hs.filed.coherent
  canBegin _ := rfl
  registration o hs := (hs.filed.listed.search_registration o).mono .inr
  byAddress a hs := by
    refine (hs.filed.listed.search_viaIndex (P := (view _).Binds a)
      ("address " ++ a.text) ?_ ?_).mono fun h => .inr (Utf8.bytes_eq_nil.1 h)
    · intro v hv
      obtain ⟨r, hr, hconfirmed, hk, rfl⟩ := hs.bound _ v hv
      exact ⟨r, hr, ⟨hr, hconfirmed, WalletAddress.text_inj.1 (Utf8.bytes_inj.1 hk).symm⟩, rfl⟩
    · rintro hnone r ⟨hr, hconfirmed, rfl⟩
      obtain ⟨v, hv⟩ := hs.indexed r hr hconfirmed
      rw [hnone] at hv
      cases hv
  byReferralCode code hs := (hs.filed.search_byReferralCode code).mono .inr
  confirmedRegistrations {s} hs := by
    obtain ⟨rs, hrs, hnodup, hmem⟩ := hs.registrations.decodeAll fun _ h => h.fits
    show Listing _ _ (s.confirmedRegistrations)
    unfold IndexedStore.confirmedRegistrations
    rw [hrs]
    refine .listed (hnodup.filter _) fun r => ?_
    rw [List.mem_filter, hmem]
    rfl
  referral o hs := (hs.filed.search_referral o).mono .inr
  referralsBySender hs ho := (hs.filed.listing_referralsOf ho).mono False.elim
  putRegistration hs hr hold := (hs.filed.filing_putRegistration hr hold).written hs
  confirmRegistration o time hs :=
    ((hs.filed.filing_confirmRegistration o time).written hs).mono .inr
  createConfirmed hs hr hfree :=
    ((hs.filed.filing_createConfirmed hr).mono fun _ => hs.creates hfree).written hs
  createReferral time hs hsender hreceiver :=
    (hs.filed.filing_createReferral time hsender hreceiver).written hs
  installReferral o time hs :=
    ((hs.filed.filing_changeReferral o (Referral.install_parties time)).written hs).mono .inr
  confirmReferral o a b time hs :=
    ((hs.filed.filing_changeReferral o (Referral.confirm_parties a b time)).written hs).mono .inr

end IndexedStore

end Onboarding
