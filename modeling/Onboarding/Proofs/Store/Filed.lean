import Onboarding.Proofs.Store.Listed
/-!
# Filed records — two tables and the indexes that list them

The indexed store keeps its records in two tables. `Filed` says that these hold records
of owners that are hashes, each under its own key, and that the index of codes and the
index of pairs list exactly what the records say. Every write keeps this up: it is
refused and changes nothing, or it files one record with its index entries (`Filing`).
The reads through the two indexes then find what there is and nothing else.

The index of addresses is not part of this. It may be left behind when a confirmed
registration is overwritten.
-/

namespace Onboarding

namespace IndexedStore

/-- The tables of records are such, and the indexes of codes and of pairs list exactly
what they say. -/
structure Filed (s : IndexedStore) : Prop where
  registrations : Records Registration.schema (fun r => ownerKey r.owner) Registration.Storable
    s.registrations
  referrals : Records Referral.schema (fun f => ownerKey f.receiver) Referral.Storable s.referrals
  codes : ∀ (k : Key) v, s.referralCodes[k]? = some v ↔
    ∃ r, s.view.Holds r ∧ k = Utf8.bytes r.ownReferralCode ∧ v = ownerKey r.owner
  pairs : ∀ (k : Key) v, s.referralsBySender[k]? = some v ↔
    ∃ f, s.view.Refers f ∧ k = pairKey f.sender f.receiver ∧ v = []

/-! ## Pairs as keys -/

theorem length_pairKey {o p : Owner} (ho : o.IsHash) (hp : p.IsHash) :
    (pairKey o p).length = 2 * Owner.hexLength := by
  rw [pairKey, List.length_append, length_ownerKey ho, length_ownerKey hp, Nat.two_mul]

theorem isKey_pairKey {o p : Owner} (ho : o.IsHash) (hp : p.IsHash) :
    KeyTable.IsKey (pairKey o p) := by
  have hlen := length_pairKey ho hp
  constructor
  · intro hn
    rw [hn] at hlen
    exact absurd hlen (by decide)
  · rw [hlen]
    decide

theorem pairReceiver_pairKey {o : Owner} (ho : o.IsHash) (p : Owner) :
    pairReceiver (pairKey o p) = .ok p := by
  have hlen : ¬ (pairKey o p).length < Owner.hexLength := by
    rw [pairKey, List.length_append, length_ownerKey ho]
    omega
  rw [pairReceiver, if_neg hlen, pairKey, List.drop_left' (length_ownerKey ho),
    ownerOfBytes_ownerKey]

/-- The pairs that start with a sender are the sender's. -/
theorem isPrefixOf_pairKey {o o' p : Owner} (ho : o.IsHash) (ho' : o'.IsHash) :
    (ownerKey o).isPrefixOf (pairKey o' p) = true ↔ o' = o := by
  rw [List.isPrefixOf_iff_prefix, pairKey]
  constructor
  · intro h
    -- both senders have the length of a hash, and so the prefix is all of the sender
    have hlen := (length_ownerKey ho).trans (length_ownerKey ho').symm
    have htake := List.prefix_iff_eq_take.1 h
    rw [hlen, List.take_left] at htake
    exact (ownerKey_inj.1 htake).symm
  · rintro rfl
    exact List.prefix_append ..

namespace Filed

variable {s : IndexedStore}

theorem listed (hs : Filed s) : Listed s :=
  ⟨hs.registrations.mono fun _ => .of_storable, hs.codes⟩

theorem coherent (hs : Filed s) : s.view.Coherent := by
  have hreg := fun {o : Owner} {r : Registration} (h : s.view.registration o = some r) =>
    (hs.registrations.recordAt_eq_some fun _ hr => hr.fits).1 h
  have href := fun {o : Owner} {f : Referral} (h : s.view.referral o = some f) =>
    (hs.referrals.recordAt_eq_some fun _ hf => hf.fits).1 h
  exact ⟨fun h => hs.listed.keyed h, fun h => (hreg h).2.1,
    fun hp hq hcode => hs.listed.codesDiffer hp hq hcode,
    fun h => ownerKey_inj.1 (href h).2.2, fun h => (href h).2.1⟩

/-! ## Reading -/

theorem search_byReferralCode (hs : Filed s) (code : String) :
    Search ("referral code " ++ code) (s.view.HasCode code) (code = "")
      (s.byReferralCode code) :=
  hs.listed.search_byReferralCode code

theorem search_referral (hs : Filed s) (o : Owner) :
    Search ("referral of " ++ o.text) (s.view.referral o = some ·) (o.text = "")
      (s.referral o) :=
  hs.referrals.search (fun _ h => h.fits) (ownerKey o) _ ownerKey_eq_nil.1

theorem referral_eq (hs : Filed s) {f : Referral} (h : s.view.Refers f) :
    s.referral f.receiver = .ok f :=
  hs.referrals.lookup (fun _ h => h.fits) h (isKey_ownerKey (hs.coherent.parties h).receiver).1 _

/-- The receivers of a sender are cut out of its pairs. -/
theorem receivers_eq (hs : Filed s) {o : Owner} (ho : o.IsHash) :
    ∃ ps, (s.referralsBySender.toList.filter fun e => (ownerKey o).isPrefixOf e.1).mapM
        (fun e => pairReceiver e.1) = .ok ps ∧ ps.Nodup ∧
      ∀ p, p ∈ ps ↔ ∃ f, s.view.Refers f ∧ f.sender = o ∧ f.receiver = p := by
  have hc := hs.coherent
  -- A pair that starts with the sender is that of one of the sender's referrals.
  have hentry : ∀ e ∈ s.referralsBySender.toList.filter fun e => (ownerKey o).isPrefixOf e.1,
      ∃ f, s.view.Refers f ∧ f.sender = o ∧ pairKey o f.receiver = e.1 := by
    intro e he
    obtain ⟨he, hprefix⟩ := List.mem_filter.1 he
    have hv := Std.ExtTreeMap.mem_toList_iff_getElem?_eq_some.1 he
    obtain ⟨f, hf, hkey, -⟩ := (hs.pairs e.1 e.2).1 hv
    rw [hkey, isPrefixOf_pairKey ho (hc.parties hf).sender] at hprefix
    exact ⟨f, hf, hprefix, by rw [hkey, hprefix]⟩
  have hcut : ∀ e ∈ s.referralsBySender.toList.filter fun e => (ownerKey o).isPrefixOf e.1,
      ∀ p, pairReceiver e.1 = .ok p → pairKey o p = e.1 := by
    intro e he p hp
    obtain ⟨f, -, -, hkey⟩ := hentry e he
    rw [← hkey, pairReceiver_pairKey ho] at hp
    rw [← Except.ok.inj hp, hkey]
  obtain ⟨ps, hps, hzip⟩ := mapM_ok (g := fun e : Key × List UInt8 => pairReceiver e.1)
    fun e he => by
      obtain ⟨f, -, -, hkey⟩ := hentry e he
      exact ⟨f.receiver, by rw [← hkey, pairReceiver_pairKey ho]⟩
  refine ⟨ps, hps, ?_, fun p => ?_⟩
  · refine List.Nodup.of_map (pairKey o) ?_
    rw [map_eq_of_forall₂ hzip hcut]
    exact (KeyedMap.nodup_keys _).sublist (List.filter_sublist.map _)
  · rw [mem_of_forall₂ hzip fun e b c hb hc => Except.ok.inj (hb.symm.trans hc)]
    constructor
    · rintro ⟨e, he, hp⟩
      obtain ⟨f, hf, hsender, hkey⟩ := hentry e he
      rw [← hkey, pairReceiver_pairKey ho] at hp
      exact ⟨f, hf, hsender, Except.ok.inj hp⟩
    · rintro ⟨f, hf, rfl, rfl⟩
      refine ⟨(pairKey f.sender f.receiver, []), List.mem_filter.2 ⟨?_, ?_⟩, ?_⟩
      · exact Std.ExtTreeMap.mem_toList_iff_getElem?_eq_some.2 ((hs.pairs _ _).2 ⟨f, hf, rfl, rfl⟩)
      · exact (isPrefixOf_pairKey ho ho).2 rfl
      · exact pairReceiver_pairKey ho _

/-- Referrals are read one by one by their receivers. -/
theorem referrals_eq (hs : Filed s) {ps : List Owner} (hnodup : ps.Nodup)
    (hps : ∀ p ∈ ps, ∃ f, s.view.Refers f ∧ f.receiver = p) :
    ∃ fs, ps.mapM s.referral = .ok fs ∧ fs.Nodup ∧
      ∀ f, f ∈ fs ↔ s.view.Refers f ∧ f.receiver ∈ ps := by
  have hread : ∀ p ∈ ps, ∀ f, s.referral p = .ok f → s.view.Refers f ∧ f.receiver = p := by
    intro p hp f hf
    obtain ⟨g, hg, rfl⟩ := hps p hp
    rw [hs.referral_eq hg] at hf
    cases hf
    exact ⟨hg, rfl⟩
  obtain ⟨fs, hfs, hzip⟩ := mapM_ok (g := s.referral) fun p hp => by
    obtain ⟨f, hf, rfl⟩ := hps p hp
    exact ⟨f, hs.referral_eq hf⟩
  refine ⟨fs, hfs, ?_, fun f => ?_⟩
  · refine List.Nodup.of_map Referral.receiver ?_
    rw [map_eq_of_forall₂ (g := id) hzip fun p hp f hf => (hread p hp f hf).2, List.map_id]
    exact hnodup
  · rw [mem_of_forall₂ hzip fun p b c hb hc => Except.ok.inj (hb.symm.trans hc)]
    constructor
    · rintro ⟨p, hp, hf⟩
      obtain ⟨hrefers, rfl⟩ := hread p hp f hf
      exact ⟨hrefers, hp⟩
    · rintro ⟨hf, hp⟩
      exact ⟨f.receiver, hp, hs.referral_eq hf⟩

theorem listing_referralsOf (hs : Filed s) {o : Owner} (ho : o.IsHash) :
    Listing (fun f => s.view.Refers f ∧ f.sender = o) False (s.referralsOf o) := by
  obtain ⟨ps, hps, hnodup, hmem⟩ := hs.receivers_eq ho
  obtain ⟨fs, hfs, hnodupf, hmemf⟩ := hs.referrals_eq hnodup fun p hp => by
    obtain ⟨f, hf, -, hp⟩ := (hmem p).1 hp
    exact ⟨f, hf, hp⟩
  have hresult : s.referralsOf o = .ok fs := by
    unfold referralsOf KeyTable.withPrefix
    rw [if_neg (isKey_ownerKey ho).1, ← hfs]
    exact congrArg (· >>= fun ps => ps.mapM s.referral) hps
  rw [hresult]
  refine .listed hnodupf fun f => ?_
  rw [hmemf, hmem]
  constructor
  · rintro ⟨hf, g, hg, hsender, hreceiver⟩
    rw [hf.eq hg hreceiver] at hsender
    exact ⟨hf, hsender⟩
  · rintro ⟨hf, hsender⟩
    exact ⟨hf, f, hf, hsender, rfl⟩

/-- **A registration and its index entries are filed**, if its code is free. -/
theorem withRegistration (hs : Filed s) {r : Registration} (hr : r.Storable)
    (hfree : s.view.CodeFree r) : Filed (s.withRegistration r) := by
  have hlisted := hs.listed.withRegistration (.of_storable hr) hfree
  refine ⟨hs.registrations.insert hr, hs.referrals, hlisted.codes, ?_⟩
  rw [view_withRegistration s hr.fits]
  exact hs.pairs

end Filed

/-! ## Writing referrals -/

/-- The tables with a referral, and an index of pairs to go with it. -/
def withReferral (s : IndexedStore) (f : Referral) (pairs : KeyTable) : IndexedStore :=
  { s with
    referrals := s.referrals.insert (ownerKey f.receiver) (Referral.schema.encode f)
    referralsBySender := pairs }

theorem view_withReferral (s : IndexedStore) {f : Referral} (hf : f.Storable) (pairs : KeyTable) :
    (s.withReferral f pairs).view = s.view.refer f := by
  refine congrArg (Contents.mk _) (funext fun o => ?_)
  refine (@recordAt_insert _ Referral.schema (fun f => ownerKey f.receiver) _ _ hf.fits _).trans ?_
  refine Eq.trans ?_ (Contents.referral_refer s.view f o).symm
  simp only [ownerKey_inj]
  rfl

namespace Filed

variable {s : IndexedStore} {r : Registration}

/-- **A referral is filed** if the index of pairs follows it. -/
theorem withReferral (hs : Filed s) {f : Referral} (hf : f.Storable) {pairs : KeyTable}
    (hpairs : ∀ (k : Key) v, pairs[k]? = some v ↔
      ∃ g, (s.view.refer f).Refers g ∧ k = pairKey g.sender g.receiver ∧ v = []) :
    Filed (s.withReferral f pairs) := by
  have hview := view_withReferral s hf pairs
  refine ⟨hs.registrations, hs.referrals.insert hf, ?_, ?_⟩
  · rw [hview]
    exact hs.codes
  · rw [hview]
    exact hpairs

/-- The index of pairs with that of a referral that is started. -/
theorem pairs_of_started (hs : Filed s) {sender receiver : Owner} (time : Timestamp)
    (hnone : s.view.referral receiver = none) (k : Key) (v : List UInt8) :
    (s.referralsBySender.insert (pairKey sender receiver) [])[k]? = some v ↔
      ∃ g, (s.view.refer (.start sender receiver time)).Refers g ∧
        k = pairKey g.sender g.receiver ∧ v = [] := by
  rw [KeyedMap.getElem?_insert]
  split
  · rename_i hk
    constructor
    · intro hv
      cases hv
      exact ⟨_, Contents.refers_refer.2 (.inl rfl), hk, rfl⟩
    · rintro ⟨g, -, -, rfl⟩
      rfl
  · rename_i hk
    rw [hs.pairs]
    constructor
    · rintro ⟨g, hg, hkg, hv⟩
      refine ⟨g, Contents.refers_refer.2 (.inr ⟨fun he => ?_, hg⟩), hkg, hv⟩
      -- the receiver had no referral
      rw [Contents.Refers, he] at hg
      exact absurd (hg.symm.trans hnone) nofun
    · rintro ⟨g, hg, hkg, hv⟩
      rcases Contents.refers_refer.1 hg with rfl | ⟨-, hg⟩
      · exact absurd hkg hk
      · exact ⟨g, hg, hkg, hv⟩

/-- The index of pairs stays as it is while a referral moves on between the same two. -/
theorem pairs_of_moved (hs : Filed s) {f f' : Referral} (hf : s.view.Refers f)
    (hreceiver : f'.receiver = f.receiver) (hsender : f'.sender = f.sender) (k : Key)
    (v : List UInt8) : s.referralsBySender[k]? = some v ↔
      ∃ g, (s.view.refer f').Refers g ∧ k = pairKey g.sender g.receiver ∧ v = [] := by
  rw [hs.pairs]
  constructor
  · rintro ⟨g, hg, hkg, hv⟩
    by_cases he : g.receiver = f'.receiver
    · have hgf := hf.eq hg (he.trans hreceiver)
      refine ⟨f', Contents.refers_refer.2 (.inl rfl), ?_, hv⟩
      rw [hkg, hgf, hsender, hreceiver]
    · exact ⟨g, Contents.refers_refer.2 (.inr ⟨he, hg⟩), hkg, hv⟩
  · rintro ⟨g, hg, hkg, hv⟩
    rcases Contents.refers_refer.1 hg with rfl | ⟨-, hg⟩
    · exact ⟨f, hf, by rw [hkg, hsender, hreceiver], hv⟩
    · exact ⟨g, hg, hkg, hv⟩
end Filed

/-! ## What a write comes to -/

/-- What a write of records does: it files one registration, of those with `R`, or one
referral, or it is refused and changes nothing. -/
inductive Filing (s : IndexedStore) (R : Registration → Prop)
    (outcome : Except StoreError Contents → Prop) (mayBreak : Prop) :
    Except StoreError Unit × IndexedStore → Prop
  | registration {r : Registration} (storable : r.Storable) (free : s.view.CodeFree r)
      (among : R r) (holds : outcome (.ok (s.view.put r))) :
    Filing s R outcome mayBreak (.ok (), s.withRegistration r)
  | referral {f : Referral} {pairs : KeyTable} (storable : f.Storable)
      (follows : ∀ (k : Key) v, pairs[k]? = some v ↔
        ∃ g, (s.view.refer f).Refers g ∧ k = pairKey g.sender g.receiver ∧ v = [])
      (holds : outcome (.ok (s.view.refer f))) :
    Filing s R outcome mayBreak (.ok (), s.withReferral f pairs)
  | refused {e : StoreError} (h : outcome (.error e)) : Filing s R outcome mayBreak (.error e, s)
  | broken {reason : String} (h : mayBreak) :
    Filing s R outcome mayBreak (.error (.backend reason), s)

/-- A registration that would replace none that is confirmed. -/
def SparesConfirmed (s : IndexedStore) (r : Registration) : Prop :=
  ∀ q, s.view.registration r.owner = some q → q.isConfirmed = false

/-- What storing a registration that is confirmed from the start comes to, as far as the
index of addresses tells. -/
inductive Creates (s : IndexedStore) (r : Registration) : Except StoreError Contents → Prop
  | created (confirmed : r.isConfirmed = true) (absent : s.view.registration r.owner = none)
      (unbound : s.addresses[Utf8.bytes r.address.text]? = none) (free : s.view.CodeFree r) :
    Creates s r (.ok (s.view.put r))
  | unconfirmed (h : r.isConfirmed = false) :
    Creates s r (.error (.conflict ("request of " ++ r.owner.text ++ " is not confirmed")))
  | known {q : Registration} (h : s.view.registration r.owner = some q) :
    Creates s r (.error (.duplicate ("request of " ++ r.owner.text)))
  | bound {v : List UInt8} (h : s.addresses[Utf8.bytes r.address.text]? = some v) :
    Creates s r (.error (.duplicate ("address " ++ r.address.text)))
  | taken (h : ¬ s.view.CodeFree r) :
    Creates s r (.error (.duplicate ("referral code " ++ r.ownReferralCode)))

section Filing

variable {s : IndexedStore} {R : Registration → Prop}
  {outcome outcome' : Except StoreError Contents → Prop} {mayBreak : Prop}
  {out : Except StoreError Unit × IndexedStore}

theorem Filing.mono (h : Filing s R outcome mayBreak out) (hmono : ∀ x, outcome x → outcome' x) :
    Filing s R outcome' mayBreak out := by
  cases h with
  | registration storable free among holds =>
    exact .registration storable free among (hmono _ holds)
  | referral storable follows holds => exact .referral storable follows (hmono _ holds)
  | refused h => exact .refused (hmono _ h)
  | broken h => exact .broken h

/-- **Filing keeps a store filed.** -/
theorem Filing.filed (h : Filing s R outcome mayBreak out) (hs : Filed s) : Filed out.2 := by
  cases h with
  | registration storable free => exact hs.withRegistration storable free
  | referral storable follows => exact hs.withReferral storable follows
  | refused => exact hs
  | broken => exact hs

end Filing

namespace Filed

variable {s : IndexedStore} {r : Registration}

/-- What putting a registration comes to. -/
theorem filing_putRegistration (hs : Filed s) (hr : r.Storable) {R : Registration → Prop}
    (hR : R r) {mayBreak : Prop} :
    Filing s R (s.view.Stores r) mayBreak (putRegistration r s) := by
  by_cases hfree : s.view.CodeFree r
  · rw [hs.listed.putRegistration_eq (.of_storable hr) hfree]
    exact .registration hr hfree hR (.stored hfree)
  · rw [hs.listed.putRegistration_of_taken hfree]
    exact .refused (.taken hfree)

/-- What confirming a registration comes to. -/
theorem filing_confirmRegistration (hs : Filed s) (o : Owner) (time : Timestamp) :
    Filing s s.SparesConfirmed (· = s.view.confirm o time) (o.text = "")
      (confirmRegistration o time s) := by
  have hsearch := hs.listed.search_registration o
  unfold confirmRegistration
  generalize hx : s.registration o = x at hsearch
  have hask : ask (·.registration o) s = (x, s) := by rw [ask, hx]
  cases hsearch with
  | missing hnone =>
    rw [Computation.bind_of_error hask]
    refine .refused ?_
    rw [Contents.confirm, Option.eq_none_iff_forall_ne_some.2 hnone]
  | broken h =>
    rw [Computation.bind_of_error hask]
    exact .broken h
  | @found q hq =>
    rw [Computation.bind_of_ok hask]
    split
    · rename_i hconfirmed
      rw [Computation.throw_bind]
      refine .refused ?_
      rw [Contents.confirm, hq]
      simp only [if_pos hconfirmed]
    · rename_i hunconfirmed
      have hheld := hs.coherent.holds hq
      have hstorable := (hs.coherent.storable hq).confirmedAt (some time)
      have hfree := hs.coherent.codeFree hheld (q := { q with confirmedAt := some time }) rfl rfl
      beta_reduce
      rw [hs.listed.putRegistration_eq (.of_storable hstorable) hfree]
      refine .registration hstorable hfree (fun p hp => ?_) ?_
      · rw [Contents.Holds] at hheld
        rw [hheld] at hp
        cases hp
        simpa using hunconfirmed
      · rw [Contents.confirm, hq]
        simp only [if_neg hunconfirmed]

theorem getElem?_referrals_eq_none (hs : Filed s) (o : Owner) :
    s.referrals[ownerKey o]? = none ↔ s.view.referral o = none :=
  (hs.referrals.recordAt_eq_none fun _ h => h.fits).symm

/-- What creating a confirmed registration comes to. -/
theorem filing_createConfirmed (hs : Filed s) (hr : r.Storable) {mayBreak : Prop} :
    Filing s s.SparesConfirmed (s.Creates r) mayBreak (createConfirmed r s) := by
  have hregistration : (ask fun s => KeyTable.get s.registrations (ownerKey r.owner)) s =
      (.ok s.registrations[ownerKey r.owner]?, s) := by
    simp only [ask, KeyTable.get, if_neg (isKey_ownerKey hr.owner).1]
  have haddress : (ask fun s => KeyTable.get s.addresses (Utf8.bytes r.address.text)) s =
      (.ok s.addresses[Utf8.bytes r.address.text]?, s) := by
    simp only [ask, KeyTable.get, if_neg hr.address.1]
  unfold createConfirmed
  -- what is not confirmed is refused, then a known owner, then a bound address
  split
  · rename_i hconfirmed
    rw [Computation.throw_bind]
    exact .refused (.unconfirmed (by simpa using hconfirmed))
  rename_i hconfirmed
  beta_reduce
  rw [Computation.bind_of_ok hregistration]
  split
  · rename_i hknown
    rw [Computation.throw_bind]
    cases hq : s.view.registration r.owner with
    | none =>
      rw [(hs.listed.getElem?_registrations_eq_none _).2 hq] at hknown
      cases hknown
    | some q => exact .refused (.known hq)
  rename_i habsent
  beta_reduce
  rw [Computation.bind_of_ok haddress]
  split
  · rename_i hbound
    rw [Computation.throw_bind]
    obtain ⟨v, hv⟩ := Option.isSome_iff_exists.1 hbound
    exact .refused (.bound hv)
  · rename_i hunbound
    have hnone := (hs.listed.getElem?_registrations_eq_none r.owner).1 (by simpa using habsent)
    have hspares : s.SparesConfirmed r := by
      intro q hq
      cases hnone.symm.trans hq
    refine (hs.filing_putRegistration hr hspares).mono fun x hx => ?_
    cases hx with
    | stored free => exact .created (by simpa using hconfirmed) hnone (by simpa using hunbound) free
    | taken h => exact .taken h

/-- What starting a referral comes to. -/
theorem filing_createReferral (hs : Filed s) {sender receiver : Owner} (time : Timestamp)
    (hsender : sender.IsHash) (hreceiver : receiver.IsHash) {R : Registration → Prop}
    {mayBreak : Prop} :
    Filing s R (· = s.view.startReferral sender receiver time) mayBreak
      (createReferral sender receiver time s) := by
  have hget : (ask fun s => KeyTable.get s.referrals (ownerKey receiver)) s =
      (.ok s.referrals[ownerKey receiver]?, s) := by
    simp only [ask, KeyTable.get, if_neg (isKey_ownerKey hreceiver).1]
  have hstorable : (Referral.start sender receiver time).Storable := ⟨hsender, hreceiver⟩
  unfold createReferral
  rw [Computation.bind_of_ok hget]
  split
  · rename_i hknown
    rw [Computation.throw_bind]
    refine .refused ?_
    cases hf : s.view.referral receiver with
    | none =>
      rw [(hs.getElem?_referrals_eq_none _).2 hf] at hknown
      cases hknown
    | some f => rw [Contents.startReferral, hf]
  · rename_i habsent
    have hnone := (hs.getElem?_referrals_eq_none receiver).1 (by simpa using habsent)
    beta_reduce
    have hwrite : (do
        put .referrals (ownerKey receiver) (Referral.schema.encode (.start sender receiver time))
        put .referralsBySender (pairKey sender receiver) []) s =
        (.ok (), s.withReferral (.start sender receiver time)
          (s.referralsBySender.insert (pairKey sender receiver) [])) := by
      rw [Computation.bind_of_ok (put_eq _ (isKey_ownerKey hreceiver) _ _),
        put_eq _ (isKey_pairKey hsender hreceiver)]
      rfl
    rw [hwrite]
    refine .referral hstorable (hs.pairs_of_started time hnone) ?_
    rw [Contents.startReferral, hnone]

/-- What moving a referral on comes to. -/
theorem filing_changeReferral (hs : Filed s) (o : Owner)
    {move : Referral → Except String Referral}
    (hmove : ∀ f f', move f = .ok f' → f'.receiver = f.receiver ∧ f'.sender = f.sender)
    {R : Registration → Prop} :
    Filing s R (· = s.view.moveReferral o move) (o.text = "") (changeReferral o move s) := by
  have hsearch := hs.search_referral o
  unfold changeReferral
  generalize hx : s.referral o = x at hsearch
  have hask : ask (·.referral o) s = (x, s) := by rw [ask, hx]
  cases hsearch with
  | missing hnone =>
    rw [Computation.bind_of_error hask]
    refine .refused ?_
    rw [Contents.moveReferral, Option.eq_none_iff_forall_ne_some.2 hnone]
  | broken h =>
    rw [Computation.bind_of_error hask]
    exact .broken h
  | @found f hf =>
    rw [Computation.bind_of_ok hask]
    cases hm : move f with
    | error reason =>
      refine .refused ?_
      rw [Contents.moveReferral, hf]
      simp only [hm]
    | ok f' =>
      obtain ⟨hreceiver, hsender⟩ := hmove f f' hm
      have howner := hs.coherent.receiver_eq hf
      have hparties := hs.coherent.parties hf
      have hstorable : f'.Storable := ⟨hsender ▸ hparties.sender, hreceiver ▸ hparties.receiver⟩
      have hkey : ownerKey o = ownerKey f'.receiver := by rw [hreceiver, howner]
      simp only [hkey]
      rw [put_eq _ (isKey_ownerKey hstorable.receiver)]
      have hpairs := hs.pairs_of_moved (hs.coherent.refers hf) hreceiver hsender
      refine .referral hstorable hpairs ?_
      rw [Contents.moveReferral, hf]
      simp only [hm]

end Filed

/-! ## The start -/

theorem filed_empty : Filed (Store.empty : IndexedStore) := by
  refine ⟨.empty, .empty, listed_empty.codes, fun k v => ?_⟩
  rw [view_empty]
  simp [Store.empty, IndexedStore.empty, Contents.Refers, Contents.empty]

end IndexedStore

end Onboarding
