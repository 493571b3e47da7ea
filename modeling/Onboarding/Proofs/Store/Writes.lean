import Mathlib.Data.List.Induction
import Onboarding.Proofs.Schema.Canonical
import Onboarding.Proofs.Store.Kind
/-!
# Writes of registrations — any of them, one after the other

A `RegistrationWrite` is one of the three writes that touch registrations, and each is
made on its own. Nothing is asked of what it brings but that its texts fit: the owner,
the code and the address may be any texts, and a confirmed registration may be written
over.

A write that is accepted puts one registration in the contents, which `Contents.Takes`
derives from the write, and a write that fails changes nothing (`write_cases`).
-/

namespace Onboarding

open StoreView

/-- A write of a registration. -/
inductive RegistrationWrite where
  /-- Stores a registration in place of any other of its owner. -/
  | put (r : Registration)
  /-- Confirms the registration of an owner. -/
  | confirm (owner : Owner) (time : Timestamp)
  /-- Stores a registration that is confirmed from the start. -/
  | create (r : Registration)

namespace RegistrationWrite

/-- What a write is on a store. -/
def op {σ : Type} [Store σ] : RegistrationWrite → StoreM σ Unit
  | put r => Store.putRegistration r
  | confirm owner time => Store.confirmRegistration owner time
  | create r => Store.createConfirmed r

/-- The owner of the registration that is written. -/
def owner : RegistrationWrite → Owner
  | put r => r.owner
  | confirm owner _ => owner
  | create r => r.owner

/-- The registration that a write brings. A confirmation brings none. -/
def brought? : RegistrationWrite → Option Registration
  | put r => some r
  | confirm _ _ => none
  | create r => some r

/-- The write with another code for what it brings. -/
def withCode (code : String) : RegistrationWrite → RegistrationWrite
  | put r => put { r with ownReferralCode := code }
  | confirm owner time => confirm owner time
  | create r => create { r with ownReferralCode := code }

/-- The texts of what a write brings are such as a word can measure. -/
def Fits (w : RegistrationWrite) : Prop :=
  ∀ r ∈ w.brought?, ∀ t ∈ r.texts, byteLength t < UInt64.size

end RegistrationWrite

/-- A write whose texts fit. -/
abbrev FittingWrite := { w : RegistrationWrite // w.Fits }

namespace Contents

/-- The registration that an accepted write puts. -/
inductive Takes (c : Contents) : RegistrationWrite → Registration → Prop
  | put {r : Registration} (free : c.CodeFree r) : Takes c (.put r) r
  | confirm {r : Registration} {time : Timestamp} (held : c.Holds r)
      (unconfirmed : r.isConfirmed = false) :
    Takes c (.confirm r.owner time) { r with confirmedAt := some time }
  | create {r : Registration} (confirmed : r.isConfirmed = true)
      (absent : c.registration r.owner = none) : Takes c (.create r) r

/-- A write puts the registration of its owner. -/
theorem Takes.owner_eq {c : Contents} {w : RegistrationWrite} {r : Registration}
    (h : c.Takes w r) : r.owner = w.owner := by
  cases h <;> rfl

end Contents

/-! ## A store under writes -/

section Write

variable {σ : Type}

theorem Store.alone_of_ok {op : StoreM σ Unit} {s s' : σ} (h : op s = (.ok (), s')) :
    Store.alone op s = (.ok (), s') := by
  unfold Store.alone
  rw [h]

theorem Store.alone_of_error {op : StoreM σ Unit} {s : σ} {e : StoreError}
    (h : (op s).1 = .error e) : Store.alone op s = (.error e, s) := by
  unfold Store.alone
  rcases hout : op s with ⟨_, s'⟩
  rw [hout] at h
  cases h
  rfl

variable [Store σ]

/-- The state after a write. -/
def Store.write (s : σ) (w : FittingWrite) : σ := (Store.alone w.1.op s).2

/-- The state of a new store after some writes. -/
def Store.written (σ : Type) [Store σ] (ws : List FittingWrite) : σ :=
  ws.foldl Store.write Store.empty

theorem Store.written_concat (ws : List FittingWrite) (w : FittingWrite) :
    Store.written σ (ws ++ [w]) = Store.write (Store.written σ ws) w :=
  List.foldl_concat ..

variable [LawfulStore σ]

variable (σ) in
/-- A store of which it is known what every write of a registration does. -/
class WritableStore where
  /-- What every write keeps. -/
  Kept : σ → Prop
  kept_empty : Kept (Store.empty : σ)
  keyed {s : σ} : Kept s → (contents s).Keyed
  accepted {s s' : σ} {w : RegistrationWrite} : Kept s → w.Fits → w.op s = (.ok (), s') →
    Kept s' ∧ ∃ r, (contents s).Takes w r ∧ contents s' = (contents s).put r
  /-- A registration is not put while another owner has its code. -/
  put_of_taken {s : σ} {r : Registration} : Kept s → ¬ (contents s).CodeFree r →
    (Store.putRegistration r s).1 = .error (.duplicate ("referral code " ++ r.ownReferralCode))

open WritableStore

/-- What a write comes to. -/
inductive WriteOutcome (s : σ) (w : RegistrationWrite) : Except StoreError Unit × σ → Prop
  | accepted {s' : σ} {r : Registration} (ok : w.op s = (.ok (), s'))
      (takes : (contents s).Takes w r) (contents_eq : contents s' = (contents s).put r) :
    WriteOutcome s w (.ok (), s')
  | refused {e : StoreError} (error : (w.op s).1 = .error e) : WriteOutcome s w (.error e, s)

variable [WritableStore σ] {s : σ}

/-- **A write puts one registration or changes nothing.** -/
theorem write_cases (hs : Kept s) (w : FittingWrite) :
    WriteOutcome s w.1 (Store.alone w.1.op s) := by
  unfold Store.alone
  rcases hout : w.1.op s with ⟨_ | _, s'⟩
  · exact .refused (congrArg Prod.fst hout)
  · obtain ⟨-, r, htakes, hcontents⟩ := accepted hs w.2 hout
    exact .accepted hout htakes hcontents

theorem kept_write (hs : Kept s) (w : FittingWrite) : Kept (Store.write s w) := by
  unfold Store.write Store.alone
  rcases hout : w.1.op s with ⟨_ | _, s'⟩
  · exact hs
  · exact (accepted hs w.2 hout).1

/-- **Every state that writes lead to is kept.** -/
theorem kept_written (ws : List FittingWrite) : Kept (Store.written σ ws) := by
  induction ws using List.reverseRecOn with
  | nil => exact kept_empty
  | append_singleton ws w ih =>
    rw [Store.written_concat]
    exact kept_write ih w

end Write

/-! ## The table store -/

namespace TableStore

/-- A table store whose registrations stand under their owners, and in which nothing is
made to fail. -/
structure Steady (s : TableStore) : Prop where
  quiet : s.failing = []
  keyed : (contents s).Keyed

instance : WritableStore TableStore where
  Kept := Steady
  kept_empty := ⟨rfl, keyed_of_sound LawfulStore.sound_empty⟩
  keyed hs := hs.keyed
  accepted {s s' w} hs _ h := by
    -- each write puts a registration in the table and is counted
    suffices hput : ∃ r, (contents s).Takes w r ∧
        s' = { s.withRegistration r with writes := s.writes + 1 } by
      obtain ⟨r, htakes, rfl⟩ := hput
      have hcontents := contents_withRegistration s r
      exact ⟨⟨hs.quiet, hcontents.symm ▸ hs.keyed.put r⟩, r, htakes, hcontents⟩
    cases w with
    | put r =>
      obtain ⟨t, ht, rfl⟩ := (write_eq_ok hs.quiet).1 h
      obtain ⟨hfree, rfl⟩ := (putRegistration_eq_ok hs.keyed).1 ht
      exact ⟨r, .put hfree, rfl⟩
    | confirm o time =>
      obtain ⟨t, ht, rfl⟩ := (write_eq_ok hs.quiet).1 h
      obtain ⟨r, hheld, rfl, hunconfirmed, rfl⟩ := confirmRegistration_ok hs.keyed ht
      exact ⟨_, .confirm hheld hunconfirmed, rfl⟩
    | create r =>
      obtain ⟨t, ht, rfl⟩ := (write_eq_ok hs.quiet).1 h
      obtain ⟨hnew, rfl⟩ := createConfirmed_eq_ok.1 ht
      exact ⟨r, .create hnew.confirmed hnew.owner, rfl⟩
  put_of_taken {s r} hs htaken := by
    show (write _ (putRegistration r) s).1 = _
    unfold write
    rw [read_of_quiet hs.quiet, putRegistration_of_taken hs.keyed htaken]

end TableStore

/-! ## The indexed store -/

namespace IndexedStore

variable {s s' : IndexedStore}

/-- What an accepted write leaves of the tables. -/
theorem Listed.accepted (hs : Listed s) {w : RegistrationWrite} (hw : w.Fits)
    (h : w.op s = (.ok (), s')) :
    ∃ r, s.view.Takes w r ∧ Listable r ∧ s.view.CodeFree r ∧ s' = s.withRegistration r := by
  cases w with
  | put r =>
    have hfits := Registration.fits_iff.2 (hw r rfl)
    obtain ⟨⟨hr, hfree⟩, rfl⟩ := (hs.putRegistration_eq_ok hfits).1 h
    exact ⟨r, .put hfree, hr, hfree, rfl⟩
  | confirm o time =>
    obtain ⟨q, hq, hunconfirmed, hput⟩ := hs.confirmRegistration_eq_ok.1 h
    have hheld := hs.keyed.holds hq
    have htexts : ∀ t ∈ q.texts, byteLength t < UInt64.size :=
      Registration.fits_iff.1 (hs.listable hheld).fits
    have hfits : Registration.schema.Fits { q with confirmedAt := some time } :=
      Registration.fits_iff.2 htexts
    obtain ⟨⟨hr, hfree⟩, rfl⟩ := (hs.putRegistration_eq_ok hfits).1 hput
    have howner := hs.keyed hq
    subst howner
    exact ⟨_, .confirm hheld hunconfirmed, hr, hfree, rfl⟩
  | create r =>
    obtain ⟨hnew, hput⟩ := createConfirmed_eq_ok.1 h
    have hfits := Registration.fits_iff.2 (hw r rfl)
    obtain ⟨⟨hr, hfree⟩, rfl⟩ := (hs.putRegistration_eq_ok hfits).1 hput
    have habsent := hnew.owner
    unfold KeyTable.get at habsent
    rw [if_neg hr.owner.1] at habsent
    exact ⟨r, .create hnew.confirmed ((hs.getElem?_registrations_eq_none _).1
      (Except.ok.inj habsent)), hr, hfree, rfl⟩

instance : WritableStore IndexedStore where
  Kept := Listed
  kept_empty := listed_empty
  keyed hs := hs.keyed
  accepted hs hw h := by
    obtain ⟨r, htakes, hr, hfree, rfl⟩ := hs.accepted hw h
    exact ⟨hs.withRegistration hr hfree, r, htakes, view_withRegistration _ hr.fits⟩
  put_of_taken hs htaken := congrArg Prod.fst (hs.putRegistration_of_taken htaken)

end IndexedStore

instance (kind : StoreKind) : WritableStore kind.State :=
  match kind with
  | .table => inferInstanceAs (WritableStore TableStore)
  | .indexed => inferInstanceAs (WritableStore IndexedStore)

end Onboarding
