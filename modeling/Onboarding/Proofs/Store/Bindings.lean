import Onboarding.Proofs.Store.Writes
/-!
# Addresses under writes — whose registration a lookup by address finds

A write binds the owner of a registration to an address if it leaves the registration
confirmed with that address. `Store.lastBound` is the owner whom the last such write
bound.

The table store searches what it holds, and so tells who is bound now. The indexed store
tells who was bound last (`IndexedStore.search_lastBound`): an index entry stays when
the registration it names is written over with another address, or as unconfirmed. A
lookup there is right as long as this has not happened to the one who was bound last
(`tellsBound_iff`), and what it misses is never there.
-/

namespace Onboarding

open StoreView WritableStore LawfulStore

section Bound

variable {σ : Type} [Store σ] [LawfulStore σ]

/-- The owner whom a write binds to an address. -/
def Store.bound? (a : WalletAddress) (s : σ) (w : FittingWrite) : Option Owner :=
  match Store.alone w.1.op s with
  | (.error _, _) => none
  | (.ok (), s') =>
    (((contents s').registration w.1.owner).filter (TableStore.isBoundTo a)).map Registration.owner

/-- The owner whom the last of some writes that bound anyone bound to an address. -/
def Store.lastBound (a : WalletAddress) : σ → List FittingWrite → Option Owner
  | _, [] => none
  | s, w :: ws => (lastBound a (Store.write s w) ws).or (Store.bound? a s w)

theorem Store.lastBound_concat (a : WalletAddress) (s : σ) (ws : List FittingWrite)
    (w : FittingWrite) : Store.lastBound a s (ws ++ [w]) =
      (Store.bound? a (ws.foldl Store.write s) w).or (Store.lastBound a s ws) := by
  induction ws generalizing s with
  | nil => simp [Store.lastBound]
  | cons v ws ih =>
    rw [List.cons_append, Store.lastBound, Store.lastBound, ih, Option.or_assoc]
    rfl

/-- A write that is refused binds nobody. -/
theorem Store.bound?_of_refused {a : WalletAddress} {s t : σ} {w : FittingWrite} {e : StoreError}
    (h : Store.alone w.1.op s = (.error e, t)) : Store.bound? a s w = none := by
  unfold Store.bound?
  rw [h]

/-- A write that is accepted binds an owner if what it puts is bound. -/
theorem Store.bound?_of_accepted {a : WalletAddress} {s s' : σ} {w : FittingWrite}
    {r : Registration} (h : Store.alone w.1.op s = (.ok (), s')) (howner : r.owner = w.1.owner)
    (hcontents : contents s' = (contents s).put r) :
    Store.bound? a s w = if TableStore.isBoundTo a r then some r.owner else none := by
  unfold Store.bound?
  rw [h]
  simp only
  rw [hcontents, ← howner, Contents.registration_put_self, Option.filter_some]
  split <;> rfl

/-- What the contents tell of the owners who were bound last. -/
structure Traces (c : Contents) (last : WalletAddress → Option Owner) : Prop where
  /-- Who was bound once still has a registration. -/
  held : ∀ a o, last a = some o → ∃ r, c.registration o = some r
  /-- Where someone is bound, someone was bound last. -/
  traced : ∀ a r, c.Binds a r → last a ≠ none

theorem Traces.put {c : Contents} {last : WalletAddress → Option Owner} (h : Traces c last)
    (r : Registration) : Traces (c.put r) fun a =>
      (if TableStore.isBoundTo a r then some r.owner else none).or (last a) where
  held a o ho := by
    rcases Option.or_eq_some_iff.1 ho with hr | ⟨-, hlast⟩
    · split at hr
      · cases hr
        exact ⟨r, Contents.registration_put_self ..⟩
      · cases hr
    · obtain ⟨q, hq⟩ := h.held a o hlast
      rw [Contents.registration_put]
      split
      · exact ⟨r, rfl⟩
      · exact ⟨q, hq⟩
  traced a q hq hnone := by
    obtain ⟨hr, hlast⟩ := Option.or_eq_none_iff.1 hnone
    obtain ⟨hheld, hbound⟩ := hq
    rcases Contents.holds_put.1 hheld with rfl | ⟨-, hheld⟩
    · rw [if_pos (TableStore.isBoundTo_iff.2 hbound)] at hr
      cases hr
    · exact h.traced a q ⟨hheld, hbound⟩ hlast

/-- **The contents trace who was bound last**, whatever is written. -/
theorem traces_written [WritableStore σ] (ws : List FittingWrite) :
    Traces (contents (Store.written σ ws)) (Store.lastBound · (Store.empty : σ) ws) := by
  induction ws using List.reverseRecOn with
  | nil =>
    have hempty : contents (Store.written σ []) = .empty := contents_empty
    rw [hempty]
    exact ⟨nofun, fun a r h => nomatch h.1⟩
  | append_singleton ws w ih =>
    have hcases := write_cases (kept_written (σ := σ) ws) w
    simp only [Store.written_concat, Store.lastBound_concat]
    show Traces (contents (Store.alone w.1.op (Store.written σ ws)).2) fun a =>
      (Store.bound? a (Store.written σ ws) w).or _
    generalize hout : Store.alone w.1.op (Store.written σ ws) = out at hcases
    cases hcases with
    | refused =>
      simp only [Store.bound?_of_refused hout, Option.none_or]
      exact ih
    | accepted _ htakes hcontents =>
      simp only [Store.bound?_of_accepted hout htakes.owner_eq hcontents]
      rw [hcontents]
      exact ih.put _

end Bound

/-! ## The index of addresses -/

namespace IndexedStore

variable {s : IndexedStore} {last : WalletAddress → Option Owner}

/-- The index of addresses leads to the owners who were bound last, and only keys are
bound. -/
structure LeadsTo (s : IndexedStore) (last : WalletAddress → Option Owner) : Prop where
  entry : ∀ a, s.addresses[Utf8.bytes a.text]? = (last a).map ownerKey
  isKey : ∀ a, last a ≠ none → KeyTable.IsKey (Utf8.bytes a.text)

theorem LeadsTo.withRegistration (h : LeadsTo s last) {r : Registration} (hr : Listable r) :
    LeadsTo (s.withRegistration r) fun a =>
      (if TableStore.isBoundTo a r then some r.owner else none).or (last a) where
  entry a := by
    simp only [IndexedStore.withRegistration]
    by_cases hconfirmed : r.isConfirmed = true
    · rw [if_pos hconfirmed, KeyedMap.getElem?_insert]
      by_cases ha : r.address = a
      · rw [if_pos (TableStore.isBoundTo_iff.2 ⟨hconfirmed, ha⟩), ha, if_pos rfl]
        rfl
      · have hkey : Utf8.bytes a.text ≠ Utf8.bytes r.address.text := fun hk =>
          ha (WalletAddress.text_inj.1 (Utf8.bytes_inj.1 hk)).symm
        rw [if_neg hkey, if_neg fun hb => ha (TableStore.isBoundTo_iff.1 hb).2]
        exact h.entry a
    · rw [if_neg hconfirmed, if_neg fun hb => hconfirmed (TableStore.isBoundTo_iff.1 hb).1]
      exact h.entry a
  isKey a hne := by
    by_cases hb : TableStore.isBoundTo a r = true
    · obtain ⟨hconfirmed, rfl⟩ := TableStore.isBoundTo_iff.1 hb
      exact hr.address hconfirmed
    · rw [if_neg hb] at hne
      exact h.isKey a hne

/-- **The index leads to the owners who were bound last**, whatever is written. -/
theorem leadsTo_written (ws : List FittingWrite) :
    LeadsTo (Store.written IndexedStore ws)
      (Store.lastBound · (Store.empty : IndexedStore) ws) := by
  induction ws using List.reverseRecOn with
  | nil =>
    refine ⟨fun a => ?_, fun a h => absurd rfl h⟩
    show (∅ : KeyTable)[Utf8.bytes a.text]? = none
    exact Std.ExtTreeMap.getElem?_empty
  | append_singleton ws w ih =>
    have hlisted : Listed (Store.written IndexedStore ws) := kept_written (σ := IndexedStore) ws
    simp only [Store.written_concat, Store.lastBound_concat]
    show LeadsTo (Store.alone w.1.op (Store.written IndexedStore ws)).2 fun a =>
      (Store.bound? a (Store.written IndexedStore ws) w).or _
    rcases hop : w.1.op (Store.written IndexedStore ws) with ⟨e | ⟨⟩, s'⟩
    · have hrefused := Store.alone_of_error (congrArg Prod.fst hop)
      simp only [hrefused, Store.bound?_of_refused hrefused, Option.none_or]
      exact ih
    · obtain ⟨r, htakes, hr, -, rfl⟩ := hlisted.accepted w.2 hop
      have hdone := Store.alone_of_ok hop
      have hcontents := view_withRegistration (Store.written IndexedStore ws) hr.fits
      simp only [hdone, Store.bound?_of_accepted hdone htakes.owner_eq hcontents]
      exact ih.withRegistration hr

/-- A lookup finds the registration of the owner who was bound last. -/
theorem search_lastBound (ws : List FittingWrite) (a : WalletAddress) :
    Search ("address " ++ a.text)
      (fun r => (contents (Store.written IndexedStore ws)).Holds r ∧
        Store.lastBound a (Store.empty : IndexedStore) ws = some r.owner)
      (Utf8.bytes a.text = []) (Store.byAddress (Store.written IndexedStore ws) a) := by
  have hlisted : Listed (Store.written IndexedStore ws) := kept_written (σ := IndexedStore) ws
  have hentry := (leadsTo_written ws).entry a
  refine hlisted.search_viaIndex ("address " ++ a.text) ?_ ?_
  · intro v hv
    obtain ⟨o, ho, rfl⟩ := Option.map_eq_some_iff.1 (hentry.symm.trans hv)
    obtain ⟨r, hr⟩ := (traces_written (σ := IndexedStore) ws).held a o ho
    have howner := hlisted.keyed hr
    subst howner
    exact ⟨r, hr, ⟨hr, ho⟩, rfl⟩
  · rintro hnone r ⟨-, ho⟩
    rw [hnone, ho] at hentry
    cases hentry

end IndexedStore

/-! ## What a lookup tells -/

/-- A lookup by address finds only what is bound to the address, and misses nothing that
is. -/
structure TellsBound {σ : Type} [Store σ] [LawfulStore σ] (s : σ) (a : WalletAddress) : Prop where
  found : ∀ r, Store.byAddress s a = .ok r → (contents s).Binds a r
  missed : ∀ key, Store.byAddress s a = .error (.notFound key) → ∀ r, ¬ (contents s).Binds a r

/-- The registration of the owner who was bound last to an address in the indexed store
is no longer bound to it. -/
def BindingLapses (kind : StoreKind) (ws : List FittingWrite) (a : WalletAddress) : Prop :=
  kind = .indexed ∧ ∃ r, (contents (Store.written kind.State ws)).Holds r ∧
    Store.lastBound a (Store.empty : kind.State) ws = some r.owner ∧
    ¬ (contents (Store.written kind.State ws)).Binds a r

namespace TableStore

/-- The table store tells who is bound. -/
theorem tellsBound_written (ws : List FittingWrite) (a : WalletAddress) :
    TellsBound (Store.written TableStore ws) a := by
  have hsteady : Steady (Store.written TableStore ws) := kept_written (σ := TableStore) ws
  have hread : Store.byAddress (Store.written TableStore ws) a = orMissing ("address " ++ a.text)
      ((Store.written TableStore ws).allRegistrations.find? (isBoundTo a)) :=
    read_of_quiet hsteady.quiet _ _
  have hsearch : Search ("address " ++ a.text) ((contents (Store.written TableStore ws)).Binds a)
      False (Store.byAddress (Store.written TableStore ws) a) :=
    hread ▸ search_byAddress hsteady.keyed a
  exact ⟨fun r => hsearch.of_found, fun key hkey => hsearch.of_missing (by rw [hkey]; rfl)⟩

end TableStore

namespace IndexedStore

variable (ws : List FittingWrite) (a : WalletAddress)

/-- What the indexed store misses is not there. -/
theorem not_binds_of_missed {key : String}
    (h : Store.byAddress (Store.written IndexedStore ws) a = .error (.notFound key))
    (r : Registration) : ¬ (contents (Store.written IndexedStore ws)).Binds a r := by
  intro hbinds
  have hmissing := (search_lastBound ws a).of_missing (by rw [h]; rfl)
  have htraces := traces_written (σ := IndexedStore) ws
  have hkeyed := (kept_written (σ := IndexedStore) ws).keyed
  obtain ⟨o, ho⟩ := Option.ne_none_iff_exists'.1 (htraces.traced a r hbinds)
  obtain ⟨q, hq⟩ := htraces.held a o ho
  have howner := hkeyed hq
  subst howner
  exact hmissing q ⟨hq, ho⟩

/-- The indexed store finds the registration that was bound last, bound or not. -/
theorem byAddress_of_lastBound {r : Registration}
    (hr : (contents (Store.written IndexedStore ws)).Holds r)
    (hlast : Store.lastBound a (Store.empty : IndexedStore) ws = some r.owner) :
    Store.byAddress (Store.written IndexedStore ws) a = .ok r := by
  have hkey := (leadsTo_written ws).isKey a (by rw [hlast]; exact Option.some_ne_none _)
  refine (search_lastBound ws a).eq_ok ⟨hr, hlast⟩ (fun q hq => ?_) hkey.1
  exact hr.eq hq.1 (Option.some.inj (hq.2.symm.trans hlast))

end IndexedStore

/-- **A lookup by address tells what is bound** after every sequence of writes, on either
store, unless a binding of the address lapses. What it misses is never there. -/
theorem tellsBound_iff (kind : StoreKind) (ws : List FittingWrite) (a : WalletAddress) :
    (∀ key, Store.byAddress (Store.written kind.State ws) a = .error (.notFound key) →
      ∀ r, ¬ (contents (Store.written kind.State ws)).Binds a r) ∧
    (TellsBound (Store.written kind.State ws) a ↔ ¬ BindingLapses kind ws a) := by
  cases kind with
  | table =>
    have htells := TableStore.tellsBound_written ws a
    have hlapse : ¬ BindingLapses .table ws a := fun h => nomatch h.1
    exact ⟨htells.missed, iff_of_true htells hlapse⟩
  | indexed =>
    refine ⟨fun key => IndexedStore.not_binds_of_missed ws a, ?_, fun hlapse => ?_⟩
    · rintro htells ⟨-, r, hr, hlast, hunbound⟩
      exact hunbound (htells.found r (IndexedStore.byAddress_of_lastBound ws a hr hlast))
    · refine ⟨fun r hr => ?_, fun key => IndexedStore.not_binds_of_missed ws a⟩
      obtain ⟨hheld, hlast⟩ := (IndexedStore.search_lastBound ws a).of_found hr
      by_contra hunbound
      exact hlapse ⟨rfl, r, hheld, hlast, hunbound⟩

/-! ## An address that is left -/

namespace LeftAddress

/-- A confirmed registration of one owner with an address. -/
def registration (address : String) : Registration :=
  ⟨Sample.first, "", ⟨address⟩, "0000", ⟨100⟩, some ⟨200⟩, "cafe0001", none⟩

theorem fits_old : (RegistrationWrite.put (registration "old")).Fits := by
  rintro _ ⟨⟩
  decide +kernel

theorem fits_new : (RegistrationWrite.put (registration "new")).Fits := by
  rintro _ ⟨⟩
  decide +kernel

/-- An owner moves from one address to another. -/
def writes : List FittingWrite := [⟨_, fits_old⟩, ⟨_, fits_new⟩]

end LeftAddress

open LeftAddress in
/-- **An address leads to a registration with another one** in the indexed store. -/
theorem not_tellsBound_left :
    ¬ TellsBound (Store.written StoreKind.indexed.State LeftAddress.writes) ⟨"old"⟩ := by
  intro h
  have hfound : Store.byAddress (Store.written IndexedStore writes) ⟨"old"⟩ =
      .ok (registration "new") := by decide +kernel
  obtain ⟨-, -, haddress⟩ := h.found _ hfound
  exact absurd haddress (by decide)

end Onboarding
