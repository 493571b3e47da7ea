import Onboarding.Proofs.Store.Lawful
import Onboarding.Proofs.Store.Map
import Onboarding.Store.Table
/-!
# The table store is lawful

Its two tables are its contents, so the laws come down to what a map answers after an
insertion, and to the operation that is made to fail (`written_write`, `search_read`).

A registration is put if its code is free (`putRegistration_eq_ok`), and created whatever
its code is (`createConfirmed_eq_ok`).
-/

namespace Onboarding

namespace TableStore

instance : StoreView TableStore where
  contents s := ⟨fun o => s.registrations[o]?, fun o => s.referrals[o]?⟩
  Sound s := Contents.Coherent ⟨fun o => s.registrations[o]?, fun o => s.referrals[o]?⟩
  failing := TableStore.failing
  failOn ops s := { s with failing := ops }

open StoreView

variable {s : TableStore}

theorem contents_registration (s : TableStore) (o : Owner) :
    (contents s).registration o = s.registrations[o]? := rfl

theorem contents_referral (s : TableStore) (o : Owner) :
    (contents s).referral o = s.referrals[o]? := rfl

theorem contents_withRegistration (s : TableStore) (r : Registration) :
    contents (s.withRegistration r) = (contents s).put r := by
  refine congrArg (Contents.mk · _) (funext fun o => ?_)
  exact (KeyedMap.getElem?_insert ..).trans (Contents.registration_put (contents s) r o).symm

theorem contents_insert_referral (s : TableStore) {o : Owner} {f : Referral}
    (ho : f.receiver = o) :
    contents { s with referrals := s.referrals.insert o f } = (contents s).refer f := by
  subst ho
  refine congrArg (Contents.mk _) (funext fun o => ?_)
  exact (KeyedMap.getElem?_insert ..).trans (Contents.referral_refer (contents s) f o).symm

theorem keyed_of_sound (hs : Sound s) : (contents s).Keyed := Contents.Coherent.keyed hs

/-- A state is sound if its contents are coherent. -/
theorem sound_of_contents {c : Contents} (h : contents s = c) (hc : c.Coherent) : Sound s := by
  subst h
  exact hc

/-! ## Reading -/

theorem read_eq (s : TableStore) {α : Type} (op : StoreOp) (x : Except StoreError α) :
    s.read op x = x ∨ op ∈ s.failing ∧ ∃ reason, s.read op x = .error (.backend reason) := by
  unfold read guard
  by_cases h : op ∈ s.failing
  · rw [if_pos h]
    exact .inr ⟨h, _, rfl⟩
  · rw [if_neg h]
    exact .inl rfl

theorem read_of_quiet (hsafe : s.failing = []) {α : Type} (op : StoreOp)
    (x : Except StoreError α) : s.read op x = x := by
  refine (s.read_eq op x).resolve_right fun h => ?_
  rw [hsafe] at h
  cases h.1

theorem search_read {α : Type} {key : String} {P : α → Prop} {op : StoreOp}
    {x : Except StoreError α} {mayBreak : Prop} (hop : op ∈ s.failing → mayBreak)
    (h : Search key P mayBreak x) : Search key P mayBreak (s.read op x) := by
  rcases s.read_eq op x with he | ⟨hf, reason, he⟩
  · rwa [he]
  · rw [he]
    exact .broken (hop hf)

theorem listing_read {α : Type} {P : α → Prop} {op : StoreOp} {as : List α}
    (nodup : as.Nodup) (mem : ∀ a, a ∈ as ↔ P a) :
    Listing P (op ∈ s.failing) (s.read op (.ok as)) := by
  rcases s.read_eq op (.ok as) with he | ⟨hf, reason, he⟩
  · rw [he]
    exact .listed nodup mem
  · rw [he]
    exact .broken hf

theorem search_orMissing {α : Type} {P : α → Prop} {mayBreak : Prop} {key : String}
    {found : Option α} (hsome : ∀ a, found = some a → P a) (hnone : found = none → ∀ a, ¬ P a) :
    Search key P mayBreak (orMissing key found) := by
  cases found with
  | none => exact .missing (hnone rfl)
  | some a => exact .found (hsome a rfl)

theorem mem_allRegistrations (hs : (contents s).Keyed) {r : Registration} :
    r ∈ s.allRegistrations ↔ (contents s).Holds r := by
  refine KeyedMap.mem_values.trans ⟨?_, fun h => ⟨_, h⟩⟩
  rintro ⟨o, ho⟩
  exact hs.holds ho

theorem mem_allReferrals (hs : Sound s) {f : Referral} :
    f ∈ s.allReferrals ↔ (contents s).Refers f := by
  refine KeyedMap.mem_values.trans ⟨?_, fun h => ⟨_, h⟩⟩
  rintro ⟨o, ho⟩
  exact Contents.Coherent.refers hs ho

theorem nodup_allRegistrations (hs : Sound s) : s.allRegistrations.Nodup :=
  KeyedMap.nodup_map_toList Registration.owner fun _ _ h => Contents.Coherent.owner_eq hs h

theorem nodup_allReferrals (hs : Sound s) : s.allReferrals.Nodup :=
  KeyedMap.nodup_map_toList Referral.receiver fun _ _ h => Contents.Coherent.receiver_eq hs h

theorem isBoundTo_iff {a : WalletAddress} {r : Registration} :
    isBoundTo a r = true ↔ r.isConfirmed = true ∧ r.address = a := by
  simp [isBoundTo]

/-- An address is looked up among all registrations. -/
theorem search_byAddress (hs : (contents s).Keyed) (a : WalletAddress) {mayBreak : Prop} :
    Search ("address " ++ a.text) ((contents s).Binds a) mayBreak
      (orMissing ("address " ++ a.text) (s.allRegistrations.find? (isBoundTo a))) := by
  refine search_orMissing ?_ ?_
  · intro r hr
    obtain ⟨hconfirmed, ha⟩ := isBoundTo_iff.1 (List.find?_some hr)
    exact ⟨(mem_allRegistrations hs).1 (List.mem_of_find?_eq_some hr), hconfirmed, ha⟩
  · rintro hnone r ⟨hheld, hbound⟩
    have hr := List.find?_eq_none.1 hnone r ((mem_allRegistrations hs).2 hheld)
    exact hr (isBoundTo_iff.2 hbound)

/-- So is a code. -/
theorem search_byReferralCode (hs : (contents s).Keyed) (code : String) {mayBreak : Prop} :
    Search ("referral code " ++ code) ((contents s).HasCode code) mayBreak
      (orMissing ("referral code " ++ code)
        (s.allRegistrations.find? (·.ownReferralCode = code))) := by
  refine search_orMissing ?_ ?_
  · intro r hr
    have hcode := List.find?_some hr
    have hheld := (mem_allRegistrations hs).1 (List.mem_of_find?_eq_some hr)
    exact ⟨hheld, of_decide_eq_true hcode⟩
  · rintro hnone r ⟨hheld, hcode⟩
    have hr := List.find?_eq_none.1 hnone r ((mem_allRegistrations hs).2 hheld)
    exact hr (decide_eq_true hcode)

/-! ## Writing -/

/-- A change that leaves the failing operations and the denylist alone. -/
def Frame (s s' : TableStore) : Prop :=
  s'.failing = s.failing ∧ s'.fraudDomains = s.fraudDomains

theorem written_write {op : StoreOp} {change : TableStore → Except StoreError TableStore}
    {outcome : Except StoreError Contents → Prop} {mayBreak : Prop}
    (hop : op ∈ s.failing → mayBreak)
    (hok : ∀ s', change s = .ok s' →
      outcome (.ok (contents s')) ∧ Sound s' ∧ s.Frame s')
    (herr : ∀ e, change s = .error e → outcome (.error e)) :
    Written s outcome mayBreak (write op change s) := by
  unfold write
  rcases s.read_eq op (change s) with he | ⟨hf, reason, he⟩
  · rw [he]
    cases hc : change s with
    | error e => exact .refused (herr e hc)
    | ok s' =>
      obtain ⟨ho, hs, hfailing, hdomains⟩ := hok s' hc
      refine .done hs ho hfailing (funext fun d => ?_)
      show s'.read .isFraudDomain _ = s.read .isFraudDomain _
      unfold read guard
      rw [hfailing, hdomains]
  · rw [he]
    exact .broken (hop hf)

/-- A write of a table in which nothing is made to fail is its change, counted. -/
theorem write_eq_ok {s' : TableStore} (hquiet : s.failing = []) {op : StoreOp}
    {change : TableStore → Except StoreError TableStore} :
    write op change s = (.ok (), s') ↔
      ∃ t, change s = .ok t ∧ s' = { t with writes := t.writes + 1 } := by
  unfold write
  rw [read_of_quiet hquiet]
  cases change s with
  | error e => exact ⟨nofun, nofun⟩
  | ok t =>
    constructor
    · intro h
      cases h
      exact ⟨t, rfl, rfl⟩
    · rintro ⟨t, ⟨⟩, rfl⟩
      rfl

theorem codeTaken_iff (hs : (contents s).Keyed) {r : Registration} :
    s.codeTaken r = true ↔ ¬ (contents s).CodeFree r := by
  unfold codeTaken Contents.CodeFree
  simp only [List.any_eq_true, mem_allRegistrations hs, ne_eq, decide_not, Bool.and_eq_true,
    Bool.not_eq_true', decide_eq_false_iff_not, decide_eq_true_eq, Contents.HasCode]
  grind

theorem moveReferral_eq (hs : Sound s) {o : Owner} {move : Referral → Except String Referral}
    (hmove : ∀ f f', move f = .ok f' → f'.receiver = f.receiver ∧ f'.sender = f.sender) :
    (∀ s', changeReferral o move s = .ok s' →
      .ok (contents s') = (contents s).moveReferral o move ∧ Sound s' ∧ s.Frame s') ∧
    ∀ e, changeReferral o move s = .error e → .error e = (contents s).moveReferral o move := by
  unfold changeReferral TableStore.referral Contents.moveReferral
  rw [contents_referral]
  cases hf : s.referrals[o]? with
  | none =>
    refine ⟨fun s' he => ?_, fun e he => ?_⟩ <;> cases he
    rfl
  | some f =>
    simp only [orMissing]
    cases hm : move f with
    | error reason =>
      refine ⟨fun s' he => ?_, fun e he => ?_⟩ <;> cases he
      rfl
    | ok f' =>
      refine ⟨fun s' he => ?_, fun e he => ?_⟩ <;> cases he
      obtain ⟨hreceiver, hsender⟩ := hmove f f' hm
      have ho : f'.receiver = o := hreceiver.trans (Contents.Coherent.receiver_eq hs hf)
      have hstorable := Contents.Coherent.parties hs hf
      have hc := contents_insert_referral s ho
      refine ⟨congrArg Except.ok hc, sound_of_contents hc ?_, rfl, rfl⟩
      exact Contents.Coherent.refer hs
        ⟨hsender ▸ hstorable.sender, hreceiver ▸ hstorable.receiver⟩

/-! ### Registrations -/

section Registrations

variable {s' : TableStore} {r : Registration}

theorem putRegistration_eq_ok (hs : (contents s).Keyed) :
    putRegistration r s = .ok s' ↔ (contents s).CodeFree r ∧ s' = s.withRegistration r := by
  unfold putRegistration
  split <;> rename_i h
  · exact ⟨nofun, fun hfree => absurd hfree.1 ((codeTaken_iff hs).1 h)⟩
  · have hfree := not_not.1 (mt (codeTaken_iff hs).2 h)
    exact ⟨fun he => ⟨hfree, (Except.ok.inj he).symm⟩, fun he => congrArg Except.ok he.2.symm⟩

theorem putRegistration_of_taken (hs : (contents s).Keyed) (h : ¬ (contents s).CodeFree r) :
    putRegistration r s = .error (.duplicate ("referral code " ++ r.ownReferralCode)) := by
  unfold putRegistration
  rw [if_pos ((codeTaken_iff hs).2 h)]

/-- A confirmation puts the registration that was there, with the time. -/
theorem confirmRegistration_ok (hs : (contents s).Keyed) {o : Owner} {time : Timestamp}
    (h : confirmRegistration o time s = .ok s') :
    ∃ r, (contents s).Holds r ∧ r.owner = o ∧ r.isConfirmed = false ∧
      s' = s.withRegistration { r with confirmedAt := some time } := by
  unfold confirmRegistration TableStore.registration at h
  cases hr : s.registrations[o]? with
  | none =>
    rw [hr] at h
    cases h
  | some r =>
    have ho : r.owner = o := hs hr
    rw [hr] at h
    simp only [orMissing] at h
    split at h
    · cases h
    · rename_i hunconfirmed
      cases h
      subst ho
      exact ⟨r, hr, rfl, by simpa using hunconfirmed, rfl⟩

/-- What a table says to a registration that is to be created confirmed: neither its
owner nor its address is there. -/
structure IsNew (s : TableStore) (r : Registration) : Prop where
  confirmed : r.isConfirmed = true
  owner : (contents s).registration r.owner = none
  address : s.allRegistrations.any (isBoundTo r.address) = false

/-- A registration is created if it is new, whatever its code. -/
theorem createConfirmed_eq_ok :
    createConfirmed r s = .ok s' ↔ IsNew s r ∧ s' = s.withRegistration r := by
  unfold createConfirmed
  rw [Std.ExtTreeMap.contains_eq_isSome_getElem?]
  constructor
  · intro h
    split at h
    · cases h
    split at h
    · cases h
    split at h
    · cases h
    · rename_i hconfirmed habsent hunbound
      cases h
      exact ⟨⟨by simpa using hconfirmed, Option.not_isSome_iff_eq_none.1 habsent,
        by simpa using hunbound⟩, rfl⟩
  · rintro ⟨hnew, rfl⟩
    have habsent : s.registrations[r.owner]? = none := hnew.owner
    rw [if_neg (by simp [hnew.confirmed]), if_neg (by simp [habsent]),
      if_neg (by simp [hnew.address])]

end Registrations

/-- What a write that puts a registration leaves. -/
theorem withRegistration_done (hs : Sound s) {r : Registration} (hr : r.Storable)
    (hfree : (contents s).CodeFree r) :
    Sound (s.withRegistration r) ∧ contents (s.withRegistration r) = (contents s).put r :=
  have hc := contents_withRegistration s r
  ⟨sound_of_contents hc (Contents.Coherent.put hs hr hfree), hc⟩

/-- What putting a registration comes to. -/
theorem written_putRegistration (hs : Sound s) {r : Registration} (hr : r.Storable) :
    Written s ((contents s).Stores r) (.setRequest ∈ failing s) (Store.putRegistration r s) := by
  refine written_write id ?_ ?_
  · intro s' h
    obtain ⟨hfree, rfl⟩ := (putRegistration_eq_ok (keyed_of_sound hs)).1 h
    obtain ⟨hsound, hc⟩ := withRegistration_done hs hr hfree
    exact ⟨hc ▸ .stored hfree, hsound, rfl, rfl⟩
  · intro e h
    unfold TableStore.putRegistration at h
    split at h
    · rename_i htaken
      cases h
      exact .taken ((codeTaken_iff (keyed_of_sound hs)).1 htaken)
    · cases h

/-- What confirming a registration comes to. -/
theorem written_confirmRegistration (hs : Sound s) (o : Owner) (time : Timestamp) :
    Written s (· = (contents s).confirm o time) (.setConfirmed ∈ failing s ∨ o.text = "")
      (Store.confirmRegistration o time s) := by
  refine written_write .inl ?_ ?_
  · intro s' h
    obtain ⟨r, hheld, rfl, hunconfirmed, rfl⟩ := confirmRegistration_ok (keyed_of_sound hs) h
    have hfree := Contents.Coherent.codeFree hs hheld (q := { r with confirmedAt := some time })
      rfl rfl
    obtain ⟨hsound, hc⟩ := withRegistration_done hs
      ((Contents.Coherent.storable hs hheld).confirmedAt (some time)) hfree
    exact ⟨(Contents.confirm_eq_ok.2 ⟨r, hheld, hunconfirmed, hc⟩).symm, hsound, rfl, rfl⟩
  · intro e h
    unfold TableStore.confirmRegistration TableStore.registration at h
    rw [Contents.confirm, contents_registration]
    cases hr : s.registrations[o]? with
    | none => rw [hr] at h; cases h; rfl
    | some r =>
      rw [hr] at h
      simp only [orMissing] at h
      split at h
      · rename_i hconfirmed
        cases h
        simp only [if_pos hconfirmed]
      · cases h

/-- What creating a confirmed registration comes to. -/
theorem written_createConfirmed (hs : Sound s) {r : Registration} (hr : r.Storable)
    (hfree : (contents s).CodeFree r) :
    Written s ((contents s).Creates r) (.createConfirmed ∈ failing s)
      (Store.createConfirmed r s) := by
  refine written_write id ?_ ?_
  · intro s' h
    obtain ⟨hnew, rfl⟩ := createConfirmed_eq_ok.1 h
    obtain ⟨hsound, hc⟩ := withRegistration_done hs hr hfree
    refine ⟨hc ▸ .created hnew.confirmed hnew.owner ?_, hsound, rfl, rfl⟩
    rintro q ⟨hheld, hq⟩
    have hmem := (mem_allRegistrations (keyed_of_sound hs)).2 hheld
    exact List.any_eq_false.1 hnew.address q hmem (isBoundTo_iff.2 hq)
  · intro e h
    unfold TableStore.createConfirmed at h
    split at h
    · rename_i hunconfirmed
      cases h
      exact .unconfirmed (by simpa using hunconfirmed)
    split at h
    · rename_i hknown
      cases h
      rw [Std.ExtTreeMap.contains_eq_isSome_getElem?, Option.isSome_iff_exists] at hknown
      obtain ⟨q, hq⟩ := hknown
      exact .known hq
    split at h
    · rename_i hbound
      cases h
      obtain ⟨q, hq, hbound⟩ := List.any_eq_true.1 hbound
      exact .bound ⟨(mem_allRegistrations (keyed_of_sound hs)).1 hq, isBoundTo_iff.1 hbound⟩
    · cases h

/-- What starting a referral comes to. -/
theorem written_createReferral (hs : Sound s) {sender receiver : Owner} (time : Timestamp)
    (hsender : sender.IsHash) (hreceiver : receiver.IsHash) :
    Written s (· = (contents s).startReferral sender receiver time)
      (.createReferral ∈ failing s) (Store.createReferral sender receiver time s) := by
  refine written_write id ?_ ?_
  · intro s' h
    unfold TableStore.createReferral at h
    split at h
    · cases h
    · rename_i habsent
      cases h
      have hc := contents_insert_referral s (f := .start sender receiver time) rfl
      refine ⟨?_, sound_of_contents hc (Contents.Coherent.refer hs ⟨hsender, hreceiver⟩), rfl, rfl⟩
      rw [Std.ExtTreeMap.contains_eq_isSome_getElem?, Option.not_isSome_iff_eq_none] at habsent
      rw [Contents.startReferral, contents_referral, habsent]
      exact congrArg Except.ok hc
  · intro e h
    unfold TableStore.createReferral at h
    split at h
    · rename_i hknown
      cases h
      rw [Std.ExtTreeMap.contains_eq_isSome_getElem?, Option.isSome_iff_exists] at hknown
      obtain ⟨f, hf⟩ := hknown
      rw [Contents.startReferral, contents_referral, hf]
    · cases h

/-! ## The laws -/

instance : LawfulStore TableStore where
  sound_empty := by
    refine sound_of_contents (c := .empty) ?_ .empty
    simp [contents, Store.empty, TableStore.empty, Contents.empty]
  contents_empty := by
    simp [contents, Store.empty, TableStore.empty, Contents.empty]
  failing_empty := rfl
  sound_failOn _ hs := hs
  contents_failOn _ _ := rfl
  failing_failOn _ _ h := h
  coherent hs := hs
  canBegin h := if_neg h
  registration o hs :=
    search_read .inl (search_orMissing (fun _ h => h) fun h a ha => by
      rw [contents_registration, h] at ha
      cases ha)
  byAddress a hs := search_read .inl (search_byAddress (keyed_of_sound hs) a)
  byReferralCode code hs := search_read .inl (search_byReferralCode (keyed_of_sound hs) code)
  confirmedRegistrations hs := by
    refine listing_read ((nodup_allRegistrations hs).filter _) fun r => ?_
    rw [List.mem_filter, mem_allRegistrations (keyed_of_sound hs)]
  referral o hs :=
    search_read .inl (search_orMissing (fun _ h => h) fun h a ha => by
      rw [contents_referral, h] at ha
      cases ha)
  referralsBySender hs _ := by
    refine listing_read ((nodup_allReferrals hs).filter _) fun f => ?_
    rw [List.mem_filter, mem_allReferrals hs, decide_eq_true_eq]
  putRegistration hs hr _ := written_putRegistration hs hr
  confirmRegistration o time hs := written_confirmRegistration hs o time
  createConfirmed hs hr hfree := written_createConfirmed hs hr hfree
  createReferral time hs hsender hreceiver := written_createReferral hs time hsender hreceiver
  installReferral o time hs := by
    obtain ⟨hok, herr⟩ := moveReferral_eq hs (o := o) (Referral.install_parties time)
    exact written_write .inl hok herr
  confirmReferral o a b time hs := by
    obtain ⟨hok, herr⟩ := moveReferral_eq hs (o := o) (Referral.confirm_parties a b time)
    exact written_write .inl hok herr

end TableStore

end Onboarding
