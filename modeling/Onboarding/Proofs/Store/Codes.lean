import Onboarding.Proofs.Store.Writes
/-!
# Codes under writes — where no two owners come to have one code

A write `Clashes` with what is stored if only its code stands in its way. `CodesKept`
asks that codes differ all along a sequence of writes, and that every write that clashes
is refused as a duplicate and changes nothing.

The indexed store keeps this up whatever is written. The table store looks at the code of
what is put, but not at the code of what is created confirmed, and so codes are kept
there exactly as long as no such write clashes (`codesKept_iff`).
-/

namespace Onboarding

open StoreView WritableStore LawfulStore

section Clashes

variable {σ : Type} [Store σ] [LawfulStore σ]

/-- What a write brings has the code of another owner, and with some other code it would
be accepted. -/
structure RegistrationWrite.Clashes (w : RegistrationWrite) (s : σ) : Prop where
  taken : ∃ r, w.brought? = some r ∧ ¬ (contents s).CodeFree r
  acceptable : ∃ code s', (w.withCode code).op s = (.ok (), s')

/-- A write is refused as a duplicate, and nothing changes. -/
def RegistrationWrite.IsDuplicate (w : RegistrationWrite) (s : σ) : Prop :=
  ∃ key, Store.alone w.op s = (.error (.duplicate key), s)

variable (σ) in
/-- Codes are kept apart over a sequence of writes. -/
structure CodesKept (ws : List FittingWrite) : Prop where
  differ : ∀ before, before <+: ws → (contents (Store.written σ before)).CodesDiffer
  refused : ∀ before w, before ++ [w] <+: ws → w.1.Clashes (Store.written σ before) →
    w.1.IsDuplicate (Store.written σ before)

/-- A write that clashes is refused on a store that refuses the creations that do: what is
put is refused anyway, and a confirmation brings no code. -/
theorem RegistrationWrite.isDuplicate_of_clashes [WritableStore σ] {s : σ} (hs : Kept s)
    {w : RegistrationWrite} (h : w.Clashes s) (hcreate : ∀ r, w = create r → w.IsDuplicate s) :
    w.IsDuplicate s := by
  obtain ⟨q, hq, htaken⟩ := h.taken
  cases w with
  | put r =>
    cases hq
    exact ⟨_, Store.alone_of_error (put_of_taken hs htaken)⟩
  | confirm o time => cases hq
  | create r => exact hcreate r rfl

end Clashes

/-- Codes go on to differ under an accepted write, if what it creates has a free code. -/
theorem Contents.CodesDiffer.takes {c : Contents} (hc : c.CodesDiffer) {w : RegistrationWrite}
    {r : Registration} (h : c.Takes w r) (hcreate : ∀ q, w = .create q → c.CodeFree q) :
    (c.put r).CodesDiffer := by
  refine hc.put ?_
  cases h with
  | put free => exact free
  | confirm held => exact hc.codeFree held rfl rfl
  | create => exact hcreate r rfl

/-! ## The two stores -/

/-- A registration that is created in the indexed store is refused if its code is taken. -/
theorem IndexedStore.isDuplicate_create {s : IndexedStore} (hs : Listed s) {r : Registration}
    (h : (RegistrationWrite.create r).Clashes s) :
    (RegistrationWrite.create r).IsDuplicate s := by
  obtain ⟨_, ⟨⟩, htaken⟩ := h.taken
  obtain ⟨code, s', hok⟩ := h.acceptable
  obtain ⟨hnew, -⟩ := createConfirmed_eq_ok.1 hok
  -- what is new does not depend on the code
  have hnew : IsNew s r := ⟨hnew.confirmed, hnew.owner, hnew.address⟩
  have hrefused := hnew.createConfirmed_eq.trans (hs.putRegistration_of_taken htaken)
  exact ⟨_, Store.alone_of_error (congrArg Prod.fst hrefused)⟩

/-- A registration that is created in the table store is accepted whatever its code. -/
theorem TableStore.create_eq_ok {s s' : TableStore} (hs : Steady s) {r : Registration}
    {code : String}
    (h : ((RegistrationWrite.create r).withCode code).op s = (.ok (), s')) :
    ∃ t, (RegistrationWrite.create r).op s = (.ok (), t) := by
  obtain ⟨_, hcreated, -⟩ := (write_eq_ok hs.quiet).1 h
  obtain ⟨hnew, -⟩ := createConfirmed_eq_ok.1 hcreated
  have hnew : IsNew s r := ⟨hnew.confirmed, hnew.owner, hnew.address⟩
  exact ⟨_, (write_eq_ok hs.quiet).2 ⟨_, createConfirmed_eq_ok.2 ⟨hnew, rfl⟩, rfl⟩⟩

/-- The table store creates a confirmed registration with a code that is taken. -/
def CodeLapses (kind : StoreKind) (ws : List FittingWrite) : Prop :=
  kind = .table ∧ ∃ before r, ∃ hr : (RegistrationWrite.create r).Fits,
    before ++ [⟨.create r, hr⟩] <+: ws ∧
      (RegistrationWrite.create r).Clashes (Store.written kind.State before)

namespace TableStore

variable {ws : List FittingWrite}

/-- Codes differ in the table store as long as none is created that is taken. -/
theorem codesDiffer_written (h : ¬ CodeLapses .table ws) :
    ∀ before, before <+: ws → (contents (Store.written TableStore before)).CodesDiffer := by
  intro before
  induction before using List.reverseRecOn with
  | nil =>
    intro _
    exact Contents.Coherent.codesDiffer (sound_empty : Sound (Store.empty : TableStore))
  | append_singleton before w ih =>
    intro hws
    have hc := ih ((List.prefix_append ..).trans hws)
    have hcases := write_cases (kept_written (σ := TableStore) before) w
    rw [Store.written_concat]
    show (contents (Store.alone w.1.op (Store.written TableStore before)).2).CodesDiffer
    generalize Store.alone w.1.op (Store.written TableStore before) = out at hcases
    cases hcases with
    | refused => exact hc
    | accepted hok htakes hcontents =>
      rw [hcontents]
      refine hc.takes htakes fun q hq => ?_
      by_contra htaken
      obtain ⟨w, hfits⟩ := w
      subst hq
      exact h ⟨rfl, before, q, hfits, hws, ⟨q, rfl, htaken⟩, q.ownReferralCode, _, hok⟩

/-- Where a code is created that is taken, the write should have been refused. -/
theorem not_isDuplicate_of_clashes {s : TableStore} (hs : Steady s) {r : Registration}
    (h : (RegistrationWrite.create r).Clashes s) :
    ¬ (RegistrationWrite.create r).IsDuplicate s := by
  rintro ⟨key, hduplicate⟩
  obtain ⟨code, s', hok⟩ := h.acceptable
  obtain ⟨t, ht⟩ := create_eq_ok hs hok
  rw [Store.alone_of_ok ht] at hduplicate
  cases hduplicate

end TableStore

/-- **Codes are kept apart by every sequence of writes**, on either store, unless the
table store creates a confirmed registration with a code that is taken. -/
theorem codesKept_iff (kind : StoreKind) (ws : List FittingWrite) :
    CodesKept kind.State ws ↔ ¬ CodeLapses kind ws := by
  constructor
  · rintro hkept ⟨rfl, before, r, hr, hws, hclash⟩
    have hsteady := kept_written (σ := TableStore) before
    exact TableStore.not_isDuplicate_of_clashes hsteady hclash
      (hkept.refused before ⟨.create r, hr⟩ hws hclash)
  · intro hlapse
    cases kind with
    | table =>
      refine ⟨TableStore.codesDiffer_written hlapse, fun before w hws hclash => ?_⟩
      refine RegistrationWrite.isDuplicate_of_clashes (kept_written before) hclash fun r hr => ?_
      obtain ⟨w, hw⟩ := w
      subst hr
      exact absurd ⟨rfl, before, r, hw, hws, hclash⟩ hlapse
    | indexed =>
      have hlisted := fun before => kept_written (σ := IndexedStore) before
      refine ⟨fun before _ => (hlisted before).codesDiffer, fun before w _ hclash => ?_⟩
      refine RegistrationWrite.isDuplicate_of_clashes (hlisted before) hclash fun r hr => ?_
      rw [hr] at hclash ⊢
      exact IndexedStore.isDuplicate_create (hlisted before) hclash

/-! ## A code with two owners -/

namespace SharedCode

open Sample

/-- A registration with the code of all of them. -/
def holder (o : Owner) (address : String) (confirmedAt : Option Timestamp) : Registration :=
  ⟨o, "", ⟨address⟩, "0000", ⟨100⟩, confirmedAt, "cafe0001", none⟩

theorem fits_put : (RegistrationWrite.put (holder first "wallet" none)).Fits := by
  rintro _ ⟨⟩
  decide +kernel

theorem fits_create : (RegistrationWrite.create (holder second "purse" (some ⟨100⟩))).Fits := by
  rintro _ ⟨⟩
  decide +kernel

/-- An owner registers, and another one is confirmed from the start. -/
def writes : List FittingWrite := [⟨_, fits_put⟩, ⟨_, fits_create⟩]

end SharedCode

open Sample SharedCode in
/-- **Two owners come to hand out one code** in the table store. -/
theorem not_codesKept_created : ¬ CodesKept StoreKind.table.State SharedCode.writes := by
  intro h
  have hfirst : (Store.written TableStore writes).registrations[first]? =
      some (holder first "wallet" none) := by decide +kernel
  have hsecond : (Store.written TableStore writes).registrations[second]? =
      some (holder second "purse" (some ⟨100⟩)) := by decide +kernel
  have hdiffer : (contents (Store.written TableStore writes)).CodesDiffer :=
    h.differ writes (List.prefix_refl _)
  have howner : first = second :=
    @hdiffer (holder first "wallet" none) (holder second "purse" (some ⟨100⟩)) hfirst hsecond rfl
  exact absurd howner (by decide)

end Onboarding
