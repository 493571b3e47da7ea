import Onboarding.Proofs.Computation
import Onboarding.Proofs.Store.Records
/-!
# Listed registrations — a table and the index of its codes

The indexed store keeps registrations in one table and their codes in another. `Listed`
says that the first holds registrations under their owners, and that the second lists
their codes and nothing else. Owners, codes and addresses are any texts that may be keys.

A write that succeeds puts a registration with its index entries
(`putRegistration_eq_ok`), and one whose code is taken is refused as a duplicate
(`putRegistration_of_taken`). The other writes of registrations come down to this one.
-/

namespace Onboarding

namespace IndexedStore

/-- What the record tables hold. -/
def view (s : IndexedStore) : Contents :=
  ⟨fun o => recordAt Registration.schema s.registrations (ownerKey o),
    fun o => recordAt Referral.schema s.referrals (ownerKey o)⟩

/-! ## Owners as keys -/

@[simp] theorem ownerKey_inj {o p : Owner} : ownerKey o = ownerKey p ↔ o = p := by
  rw [ownerKey, ownerKey, Utf8.bytes_inj, Owner.text_inj]

theorem ownerKey_eq_nil {o : Owner} : ownerKey o = [] ↔ o.text = "" := Utf8.bytes_eq_nil

theorem length_ownerKey {o : Owner} (h : o.IsHash) : (ownerKey o).length = Owner.hexLength := h

theorem isKey_ownerKey {o : Owner} (h : o.IsHash) : KeyTable.IsKey (ownerKey o) :=
  ⟨fun hn => h.text_ne (ownerKey_eq_nil.1 hn), by rw [length_ownerKey h]; decide⟩

theorem ownerOfBytes_ownerKey (what : String) (o : Owner) :
    ownerOfBytes what (ownerKey o) = .ok o := by
  rw [ownerOfBytes, ownerKey, Utf8.text_bytes]

/-! ## One write to one table -/

/-- A write under a key that may be one. -/
theorem put_eq (name : TableName) {k : Key} (hk : KeyTable.IsKey k) (v : List UInt8)
    (s : IndexedStore) :
    put name k v s = (.ok (), s.setTable name ((s.table name).insert k v)) := by
  have hno : ¬ (k = [] ∨ KeyTable.maxKeyLength < k.length) := by
    rintro (h | h)
    · exact hk.1 h
    · exact Nat.not_lt.2 hk.2 h
  unfold put change KeyTable.put
  simp only [if_neg hno]

/-- A write succeeds only under a key that may be one. -/
theorem isKey_of_put {name : TableName} {k : Key} {v : List UInt8} {s s' : IndexedStore}
    (h : put name k v s = (.ok (), s')) : KeyTable.IsKey k := by
  by_cases hk : k = [] ∨ KeyTable.maxKeyLength < k.length
  · unfold put change KeyTable.put at h
    simp only [if_pos hk] at h
    cases h
  · obtain ⟨hne, hlen⟩ := not_or.1 hk
    exact ⟨hne, Nat.not_lt.1 hlen⟩

/-! ## Registrations and their codes -/

/-- A registration that the tables have a place for. -/
structure Listable (r : Registration) : Prop where
  fits : Registration.schema.Fits r
  owner : KeyTable.IsKey (ownerKey r.owner)
  code : KeyTable.IsKey (Utf8.bytes r.ownReferralCode)
  /-- Only a confirmed registration is found by its address. -/
  address : r.isConfirmed = true → KeyTable.IsKey (Utf8.bytes r.address.text)

theorem Listable.of_storable {r : Registration} (h : r.Storable) : Listable r :=
  ⟨h.fits, isKey_ownerKey h.owner, h.ownReferralCode, fun _ => h.address⟩

/-- A table of registrations, and the index that lists exactly their codes. -/
structure Listed (s : IndexedStore) : Prop where
  registrations : Records Registration.schema (fun r => ownerKey r.owner) Listable s.registrations
  codes : ∀ (k : Key) v, s.referralCodes[k]? = some v ↔
    ∃ r, s.view.Holds r ∧ k = Utf8.bytes r.ownReferralCode ∧ v = ownerKey r.owner

namespace Listed

variable {s : IndexedStore} {r : Registration}

theorem record (hs : Listed s) {o : Owner} (h : s.view.registration o = some r) :
    Listable r ∧ ownerKey r.owner = ownerKey o :=
  ((hs.registrations.recordAt_eq_some fun _ hr => hr.fits).1 h).2

theorem listable (hs : Listed s) (h : s.view.Holds r) : Listable r := (hs.record h).1

theorem keyed (hs : Listed s) : s.view.Keyed := fun _ _ h => ownerKey_inj.1 (hs.record h).2

theorem codesDiffer (hs : Listed s) : s.view.CodesDiffer := by
  intro p q hp hq hcode
  -- two owners of one code would be two values under one key of the index
  have hkp := (hs.codes _ _).2 ⟨p, hp, rfl, rfl⟩
  have hkq := (hs.codes _ _).2 ⟨q, hq, rfl, rfl⟩
  rw [hcode, hkq] at hkp
  exact ownerKey_inj.1 (Option.some_inj.1 hkp).symm

theorem getElem?_registrations_eq_none (hs : Listed s) (o : Owner) :
    s.registrations[ownerKey o]? = none ↔ s.view.registration o = none :=
  (hs.registrations.recordAt_eq_none fun _ h => h.fits).symm

/-! ## Reading -/

theorem search_registration (hs : Listed s) (o : Owner) :
    Search ("request of " ++ o.text) (s.view.registration o = some ·) (o.text = "")
      (s.registration o) :=
  hs.registrations.search (fun _ h => h.fits) (ownerKey o) _ ownerKey_eq_nil.1

theorem registration_eq (hs : Listed s) (h : s.view.Holds r) : s.registration r.owner = .ok r :=
  hs.registrations.lookup (fun _ h => h.fits) h (hs.listable h).owner.1 _

/-- A lookup by way of an index finds the registration whose owner stands there. -/
theorem viaIndex_eq (hs : Listed s) {index : KeyTable} {k : Key} (hk : k ≠ [])
    (hr : s.view.Holds r) (hindex : index[k]? = some (ownerKey r.owner)) (what : String) :
    s.viaIndex index k what = .ok r := by
  unfold viaIndex
  rw [find_eq what hk, hindex]
  show (ownerOfBytes "owner key" (ownerKey r.owner) >>= s.registration) = .ok r
  rw [ownerOfBytes_ownerKey]
  exact hs.registration_eq hr

/-- An index that names registrations with `P` finds one. -/
theorem search_viaIndex (hs : Listed s) {index : KeyTable} {k : Key} {P : Registration → Prop}
    (what : String)
    (hsome : ∀ v, index[k]? = some v → ∃ r, s.view.Holds r ∧ P r ∧ v = ownerKey r.owner)
    (hnone : index[k]? = none → ∀ r, ¬ P r) :
    Search what P (k = []) (s.viaIndex index k what) := by
  by_cases hk : k = []
  · subst hk
    exact .broken rfl
  cases hv : index[k]? with
  | none =>
    have hmissing : s.viaIndex index k what = .error (.notFound what) := by
      unfold viaIndex
      rw [find_eq what hk, hv]
      rfl
    rw [hmissing]
    exact .missing (hnone hv)
  | some v =>
    obtain ⟨r, hr, hP, rfl⟩ := hsome v hv
    rw [hs.viaIndex_eq hk hr hv]
    exact .found hP

/-- A code is looked up in the index of codes. -/
theorem search_byReferralCode (hs : Listed s) (code : String) :
    Search ("referral code " ++ code) (s.view.HasCode code) (code = "")
      (s.byReferralCode code) := by
  refine (hs.search_viaIndex ("referral code " ++ code) ?_ ?_).mono Utf8.bytes_eq_nil.1
  · intro v hv
    obtain ⟨r, hr, hk, rfl⟩ := (hs.codes _ v).1 hv
    exact ⟨r, hr, ⟨hr, (Utf8.bytes_inj.1 hk).symm⟩, rfl⟩
  · rintro hnone r ⟨hr, rfl⟩
    have hv := (hs.codes _ _).2 ⟨r, hr, rfl, rfl⟩
    rw [hnone] at hv
    cases hv

end Listed

/-! ## A registration with its index entries -/

/-- The index of codes without the code that `r` gives up. -/
def codesWithout (s : IndexedStore) (r : Registration) : KeyTable :=
  match s.view.registration r.owner with
  | none => s.referralCodes
  | some old =>
    if old.ownReferralCode ≠ r.ownReferralCode then
      s.referralCodes.erase (Utf8.bytes old.ownReferralCode)
    else s.referralCodes

/-- The tables with a registration and its index entries. -/
def withRegistration (s : IndexedStore) (r : Registration) : IndexedStore :=
  { s with
    registrations := s.registrations.insert (ownerKey r.owner) (Registration.schema.encode r)
    referralCodes := (s.codesWithout r).insert (Utf8.bytes r.ownReferralCode) (ownerKey r.owner)
    addresses :=
      if r.isConfirmed then s.addresses.insert (Utf8.bytes r.address.text) (ownerKey r.owner)
      else s.addresses }

theorem view_withRegistration (s : IndexedStore) {r : Registration}
    (hr : Registration.schema.Fits r) : (s.withRegistration r).view = s.view.put r := by
  refine congrArg (Contents.mk · _) (funext fun o => ?_)
  refine (@recordAt_insert _ Registration.schema (fun r => ownerKey r.owner) _ _ hr _).trans ?_
  refine Eq.trans ?_ (Contents.registration_put s.view r o).symm
  simp only [ownerKey_inj]
  rfl

namespace Listed

variable {s s' : IndexedStore} {r : Registration}

/-- Where the owner of a code that is looked up keeps it, the index says so already. -/
theorem codes_keeping (hs : Listed s) {k : Key} (v : List UInt8)
    (hkeep : ∀ q, s.view.Holds q → k = Utf8.bytes q.ownReferralCode → q.owner = r.owner →
      q.ownReferralCode = r.ownReferralCode) :
    s.referralCodes[k]? = some v ↔ ∃ q, s.view.Holds q ∧ k = Utf8.bytes q.ownReferralCode ∧
      v = ownerKey q.owner ∧ (q.owner = r.owner → q.ownReferralCode = r.ownReferralCode) := by
  rw [hs.codes]
  constructor
  · rintro ⟨q, hq, hk, hv⟩
    exact ⟨q, hq, hk, hv, hkeep q hq hk⟩
  · rintro ⟨q, hq, hk, hv, -⟩
    exact ⟨q, hq, hk, hv⟩

/-- What is left of the index of codes: the codes of the others, and that of the owner
if it stays. -/
theorem codesWithout_eq_some (hs : Listed s) (k : Key) (v : List UInt8) :
    (s.codesWithout r)[k]? = some v ↔ ∃ q, s.view.Holds q ∧ k = Utf8.bytes q.ownReferralCode ∧
      v = ownerKey q.owner ∧ (q.owner = r.owner → q.ownReferralCode = r.ownReferralCode) := by
  unfold codesWithout
  cases hold : s.view.registration r.owner with
  | none =>
    -- the owner is new, and so nobody looked up is the owner
    refine hs.codes_keeping v fun q hq _ howner => ?_
    rw [Contents.Holds, howner, hold] at hq
    cases hq
  | some old =>
    have hheld := hs.keyed.holds hold
    have howner := hs.keyed hold
    simp only
    split
    · -- the owner changes the code, and the old one is dropped
      rename_i hcode
      rw [KeyedMap.getElem?_erase]
      split
      · rename_i hk
        refine ⟨nofun, ?_⟩
        rintro ⟨q, hq, hkq, -, hkeep⟩
        have heq : old.ownReferralCode = q.ownReferralCode := Utf8.bytes_inj.1 (hk.symm.trans hkq)
        have hqo := (hs.codesDiffer hheld hq heq).symm.trans howner
        exact absurd (heq.trans (hkeep hqo)) hcode
      · rename_i hk
        refine hs.codes_keeping v fun q hq hkq hqo => absurd ?_ hk
        rw [hkq, hheld.eq hq (hqo.trans howner.symm)]
    · -- the owner keeps the code, and nothing is dropped
      rename_i hcode
      refine hs.codes_keeping v fun q hq _ hqo => ?_
      rw [hheld.eq hq (hqo.trans howner.symm)]
      exact not_not.1 hcode

/-- The index of codes beside the new registration. -/
theorem codes_withRegistration (hs : Listed s) (hfree : s.view.CodeFree r) (k : Key)
    (v : List UInt8) : (s.withRegistration r).referralCodes[k]? = some v ↔
      ∃ q, (s.view.put r).Holds q ∧ k = Utf8.bytes q.ownReferralCode ∧ v = ownerKey q.owner := by
  show ((s.codesWithout r).insert _ _)[k]? = some v ↔ _
  rw [KeyedMap.getElem?_insert]
  split
  · -- the code of the new registration: nobody else has it
    rename_i hk
    constructor
    · intro hv
      cases hv
      exact ⟨r, Contents.holds_put.2 (.inl rfl), hk, rfl⟩
    · rintro ⟨q, hq, hkq, rfl⟩
      rcases Contents.holds_put.1 hq with rfl | ⟨hne, hq⟩
      · rfl
      · exact absurd (hfree q ⟨hq, Utf8.bytes_inj.1 (hkq.symm.trans hk)⟩) hne
  · -- any other code: its owner is someone else, or has given it up
    rename_i hk
    rw [hs.codesWithout_eq_some]
    constructor
    · rintro ⟨q, hq, hkq, hv, hcode⟩
      refine ⟨q, Contents.holds_put.2 (.inr ⟨fun howner => hk ?_, hq⟩), hkq, hv⟩
      rw [hkq, hcode howner]
    · rintro ⟨q, hq, hkq, hv⟩
      rcases Contents.holds_put.1 hq with rfl | ⟨hne, hq⟩
      · exact absurd hkq hk
      · exact ⟨q, hq, hkq, hv, fun howner => absurd howner hne⟩

/-- **A registration and its index entries are listed**, if its code is free. -/
theorem withRegistration (hs : Listed s) (hr : Listable r) (hfree : s.view.CodeFree r) :
    Listed (s.withRegistration r) := by
  refine ⟨hs.registrations.insert hr, fun k v => ?_⟩
  rw [view_withRegistration s hr.fits]
  exact hs.codes_withRegistration hfree k v

/-! ## Writing -/

theorem checkCode_eq (hs : Listed s) (hcode : Utf8.bytes r.ownReferralCode ≠ []) :
    checkCode r s = (.ok (), s) ∧ s.view.CodeFree r ∨
      checkCode r s = (.error (.duplicate ("referral code " ++ r.ownReferralCode)), s) ∧
        ¬ s.view.CodeFree r := by
  unfold checkCode
  have hget : (ask fun s => KeyTable.get s.referralCodes (Utf8.bytes r.ownReferralCode)) s =
      (.ok s.referralCodes[Utf8.bytes r.ownReferralCode]?, s) := by
    simp only [ask, KeyTable.get, if_neg hcode]
  rw [Computation.bind_of_ok hget]
  cases hv : s.referralCodes[Utf8.bytes r.ownReferralCode]? with
  | none =>
    refine .inl ⟨rfl, fun q hq => ?_⟩
    have := (hs.codes _ _).2 ⟨q, hq.1, rfl, rfl⟩
    rw [hq.2, hv] at this
    cases this
  | some holder =>
    obtain ⟨q, hq, hkq, rfl⟩ := (hs.codes _ _).1 hv
    have hcode : q.ownReferralCode = r.ownReferralCode := (Utf8.bytes_inj.1 hkq).symm
    simp only [ne_eq, ownerKey_inj, ite_not]
    split
    · rename_i howner
      exact .inl ⟨rfl, hs.codesDiffer.codeFree hq howner.symm hcode.symm⟩
    · rename_i howner
      exact .inr ⟨rfl, fun hfree => howner (hfree q ⟨hq, hcode⟩)⟩

theorem dropOldCode_eq (hs : Listed s) (howner : ownerKey r.owner ≠ []) :
    dropOldCode r s = (.ok (), { s with referralCodes := s.codesWithout r }) := by
  unfold dropOldCode codesWithout
  have hsearch := hs.search_registration r.owner
  cases hold : s.view.registration r.owner with
  | none =>
    have hread : Except.found? (s.registration r.owner) = .ok none := by
      rw [hsearch.eq_missing (fun q hq => by rw [hold] at hq; cases hq)
        (mt ownerKey_eq_nil.2 howner)]
      rfl
    rw [Computation.bind_of_ok (show ask _ s = (.ok none, s) from by rw [ask, hread])]
    rfl
  | some old =>
    have hheld := hs.keyed.holds hold
    have hread : Except.found? (s.registration r.owner) = .ok (some old) := by
      rw [← hs.keyed hold, hs.registration_eq hheld]
      rfl
    rw [Computation.bind_of_ok (show ask _ s = (.ok (some old), s) from by rw [ask, hread])]
    simp only
    split
    · have hkey := (hs.listable hheld).code.1
      unfold change KeyTable.delete
      simp only [if_neg hkey]
      rfl
    · rfl

theorem putRegistration_eq (hs : Listed s) (hr : Listable r) (hfree : s.view.CodeFree r) :
    putRegistration r s = (.ok (), s.withRegistration r) := by
  have hcheck : checkCode r s = (.ok (), s) := by
    rcases hs.checkCode_eq hr.code.1 with ⟨h, -⟩ | ⟨-, h⟩
    · exact h
    · exact absurd hfree h
  have hrecord := put_eq .registrations hr.owner (Registration.schema.encode r)
  unfold putRegistration
  rw [Computation.bind_of_ok hcheck, Computation.bind_of_ok (hs.dropOldCode_eq hr.owner.1),
    Computation.bind_of_ok (put_eq _ hr.code _ _)]
  unfold IndexedStore.withRegistration
  split
  · rename_i hconfirmed
    rw [Computation.bind_of_ok (put_eq _ (hr.address hconfirmed) _ _)]
    exact hrecord _
  · exact hrecord _

/-- **A registration whose code is taken is refused**, whatever else is wrong with it. -/
theorem putRegistration_of_taken (hs : Listed s) (htaken : ¬ s.view.CodeFree r) :
    putRegistration r s =
      (.error (.duplicate ("referral code " ++ r.ownReferralCode)), s) := by
  have hcode : Utf8.bytes r.ownReferralCode ≠ [] := by
    intro hnil
    refine htaken fun q hq => absurd hnil ?_
    rw [← hq.2]
    exact (hs.listable hq.1).code.1
  rcases hs.checkCode_eq hcode with ⟨-, hfree⟩ | ⟨hcheck, -⟩
  · exact absurd hfree htaken
  · unfold putRegistration
    rw [Computation.bind_of_error hcheck]

/-- **Putting a registration succeeds only as it should**: there is a place for it, its
code is free, and it is put with its index entries. -/
theorem putRegistration_eq_ok (hs : Listed s) (hfits : Registration.schema.Fits r) :
    putRegistration r s = (.ok (), s') ↔
      (Listable r ∧ s.view.CodeFree r) ∧ s' = s.withRegistration r := by
  constructor
  · intro h
    have hfree : s.view.CodeFree r := by
      by_contra htaken
      rw [hs.putRegistration_of_taken htaken] at h
      cases h
    have hr : Listable r := by
      unfold putRegistration at h
      obtain ⟨_, _, -, h⟩ := Computation.bind_eq_ok h
      obtain ⟨_, _, -, h⟩ := Computation.bind_eq_ok h
      obtain ⟨_, _, hcode, h⟩ := Computation.bind_eq_ok h
      split at h
      · obtain ⟨_, _, haddress, h⟩ := Computation.bind_eq_ok h
        exact ⟨hfits, isKey_of_put h, isKey_of_put hcode, fun _ => isKey_of_put haddress⟩
      · rename_i hunconfirmed
        exact ⟨hfits, isKey_of_put h, isKey_of_put hcode, fun hc => absurd hc hunconfirmed⟩
    rw [hs.putRegistration_eq hr hfree] at h
    cases h
    exact ⟨⟨hr, hfree⟩, rfl⟩
  · rintro ⟨⟨hr, hfree⟩, rfl⟩
    exact hs.putRegistration_eq hr hfree

/-- Confirming an unconfirmed registration puts it once more, with the time. -/
theorem confirmRegistration_eq (hs : Listed s) (hr : s.view.Holds r)
    (hunconfirmed : r.isConfirmed = false) (time : Timestamp) :
    confirmRegistration r.owner time s =
      putRegistration { r with confirmedAt := some time } s := by
  have hask : ask (·.registration r.owner) s = (.ok r, s) := by
    rw [ask, hs.registration_eq hr]
  unfold confirmRegistration
  rw [Computation.bind_of_ok hask, if_neg (by rw [hunconfirmed]; decide)]

/-- A confirmation succeeds only if there is an unconfirmed registration. -/
theorem confirmRegistration_eq_ok (hs : Listed s) {o : Owner} {time : Timestamp} :
    confirmRegistration o time s = (.ok (), s') ↔
      ∃ r, s.view.registration o = some r ∧ r.isConfirmed = false ∧
        putRegistration { r with confirmedAt := some time } s = (.ok (), s') := by
  constructor
  · intro h
    obtain ⟨r, t, hask, hrest⟩ := Computation.bind_eq_ok h
    have hr := (hs.search_registration o).of_found (Prod.mk.inj hask).1
    have hunconfirmed : r.isConfirmed = false := by
      by_contra hconfirmed
      rw [if_pos (by simpa using hconfirmed), Computation.throw_bind] at hrest
      cases hrest
    refine ⟨r, hr, hunconfirmed, ?_⟩
    rw [← hs.confirmRegistration_eq (hs.keyed.holds hr) hunconfirmed, hs.keyed hr]
    exact h
  · rintro ⟨r, hr, hunconfirmed, h⟩
    rw [← hs.keyed hr, hs.confirmRegistration_eq (hs.keyed.holds hr) hunconfirmed]
    exact h

end Listed

/-- What the tables say to a registration that is to be created confirmed: neither its
owner nor its address is there. -/
structure IsNew (s : IndexedStore) (r : Registration) : Prop where
  confirmed : r.isConfirmed = true
  owner : KeyTable.get s.registrations (ownerKey r.owner) = .ok none
  address : KeyTable.get s.addresses (Utf8.bytes r.address.text) = .ok none

variable {s s' : IndexedStore} {r : Registration}

/-- What is new is put. -/
theorem IsNew.createConfirmed_eq (h : IsNew s r) : createConfirmed r s = putRegistration r s := by
  have howner : (ask fun s => KeyTable.get s.registrations (ownerKey r.owner)) s =
      (.ok none, s) := by rw [ask, h.owner]
  have haddress : (ask fun s => KeyTable.get s.addresses (Utf8.bytes r.address.text)) s =
      (.ok none, s) := by rw [ask, h.address]
  unfold createConfirmed
  rw [if_neg (by rw [h.confirmed]; decide)]
  beta_reduce
  rw [Computation.bind_of_ok howner, if_neg (by decide)]
  beta_reduce
  rw [Computation.bind_of_ok haddress, if_neg (by decide)]

/-- A registration is created only if it is new. -/
theorem createConfirmed_eq_ok :
    createConfirmed r s = (.ok (), s') ↔ IsNew s r ∧ putRegistration r s = (.ok (), s') := by
  constructor
  · intro h
    have hnew : IsNew s r := by
      unfold createConfirmed at h
      split at h
      · rw [Computation.throw_bind] at h
        cases h
      rename_i hconfirmed
      beta_reduce at h
      obtain ⟨known, t, howner, h⟩ := Computation.bind_eq_ok h
      split at h
      · rw [Computation.throw_bind] at h
        cases h
      rename_i hknown
      obtain rfl : s = t := congrArg Prod.snd howner
      obtain ⟨bound, t, haddress, h⟩ := Computation.bind_eq_ok h
      split at h
      · rw [Computation.throw_bind] at h
        cases h
      rename_i hbound
      obtain rfl : s = t := congrArg Prod.snd haddress
      rw [Option.not_isSome_iff_eq_none] at hknown hbound
      subst hknown hbound
      exact ⟨by simpa using hconfirmed, congrArg Prod.fst howner, congrArg Prod.fst haddress⟩
    exact ⟨hnew, hnew.createConfirmed_eq ▸ h⟩
  · rintro ⟨hnew, h⟩
    rw [hnew.createConfirmed_eq]
    exact h

/-! ## The start -/

theorem view_empty : view (Store.empty : IndexedStore) = .empty := by
  simp [view, Store.empty, IndexedStore.empty, Contents.empty, recordAt]

theorem listed_empty : Listed (Store.empty : IndexedStore) := by
  refine ⟨.empty, fun k v => ?_⟩
  rw [view_empty]
  simp [Store.empty, IndexedStore.empty, Contents.Holds, Contents.empty]

end IndexedStore

end Onboarding
