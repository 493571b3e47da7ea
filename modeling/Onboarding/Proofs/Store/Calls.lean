import Onboarding.Proofs.Store.Filed
import Onboarding.Store.Call
/-!
# Calls — what every sequence of calls on a store keeps

An invariant that single calls keep is kept by transactions of them, whether they commit
or fail and however they are nested, and by every sequence of calls and transactions
(`StoreCall.keeps_runAll`). For the indexed store the invariant is `Filed`: after any
sequence of calls that write nothing too long for a key, and in the middle of any
transaction, the indexes of codes and of pairs say what the tables say.
-/

namespace Onboarding

/-! ## Transactions -/

namespace Store

variable {ε σ γ α : Type} {I : σ → Prop}

/-- A write on its own leaves the store as it was, or as the write left it. -/
theorem alone_keeps {op : StoreM σ α} {s : σ} (hs : I s) (hop : I (op s).2) :
    I (alone op s).2 := by
  unfold alone
  split
  · rename_i hout
    rwa [hout] at hop
  · exact hs

variable [Store σ]

/-- A transaction leaves the store as it was, or as its body left it. -/
theorem transaction_keeps {ofStore : StoreError → ε} {body : Body ε σ γ α} {p : σ × γ}
    (hp : I p.1) (hbody : I (body p).2.1) : I (transaction ofStore body p).2.1 := by
  unfold transaction
  split
  · exact hp
  · split
    · rename_i hout
      rwa [hout] at hbody
    · exact hp

/-- So does a transaction inside another one, undone or not. -/
theorem nestedTransaction_keeps {ofStore : StoreError → ε} {body : Body ε σ γ α} {p : σ × γ}
    (hp : I p.1) (hbody : I (body p).2.1) : I (nestedTransaction ofStore body p).2.1 := by
  unfold nestedTransaction
  split
  · exact hp
  · split
    · rename_i hout
      rwa [hout] at hbody
    · rename_i hout
      rw [hout] at hbody
      dsimp only
      split
      · exact hp
      · exact hbody

end Store

/-! ## Sequences of calls -/

namespace StoreCall

mutual

/-- The call has `P`, or every step of the transaction that it is. -/
def Each (P : StoreCall → Prop) : StoreCall → Prop
  | .transaction steps _ => EachOf P steps
  | c => P c

/-- Each of the calls has `P`, all the way down. -/
def EachOf (P : StoreCall → Prop) : List StoreCall → Prop
  | [] => True
  | c :: r => c.Each P ∧ EachOf P r

end

section Keeps

variable {σ : Type} [Store σ] {P : StoreCall → Prop} {I : σ → Prop}

/-- Single calls with `P` keep `I`, whether they succeed or fail. -/
def Keeps (P : StoreCall → Prop) (I : σ → Prop) : Prop :=
  ∀ c s, P c → I s → I (simple c s).2

mutual

theorem keeps_runNested (hkeeps : Keeps P I) (c : StoreCall) (s : σ) (hc : c.Each P) (hs : I s) :
    I (runNested c s).2 := by
  cases c with
  | transaction steps ending =>
    exact Store.nestedTransaction_keeps hs (keeps_runSteps hkeeps ending steps (s, []) hc hs)
  | _ => exact hkeeps _ s hc hs

theorem keeps_runSteps (hkeeps : Keeps P I) (ending : Ending) (steps : List StoreCall)
    (p : σ × List CallResult) (hsteps : EachOf P steps) (hp : I p.1) :
    I (runSteps ending steps p).2.1 := by
  cases steps with
  | nil => exact hp
  | cons step rest =>
    have hstep := keeps_runNested hkeeps step p.1 hsteps.1 hp
    rw [runSteps]
    beta_reduce
    split
    rename_i r s hout
    rw [hout] at hstep
    split
    · exact hstep
    · exact keeps_runSteps hkeeps ending rest _ hsteps.2 hstep

end

theorem keeps_run (hkeeps : Keeps P I) {c : StoreCall} {s : σ} (hc : c.Each P) (hs : I s) :
    I (run c s).2 := by
  cases c with
  | transaction steps ending =>
    exact Store.transaction_keeps hs (keeps_runSteps hkeeps ending steps (s, []) hc hs)
  | _ => exact Store.alone_keeps hs (hkeeps _ s hc hs)

/-- **What single calls keep is kept by every sequence of calls and transactions.** -/
theorem keeps_runAll (hkeeps : Keeps P I) {calls : List StoreCall} (hcalls : EachOf P calls) :
    ∀ {s : σ}, I s → I (runAll calls s).2 := by
  induction calls with
  | nil => exact id
  | cons c rest ih => exact fun hs => ih hcalls.2 (keeps_run hkeeps hcalls.1 hs)

end Keeps

/-- Whatever the call writes can be filed: its owners are hashes, what is indexed can be a
key, and other texts are no longer than a word can tell, as no text in memory is. What a
call only looks up may be anything. -/
def Fits : StoreCall → Prop
  | .putRegistration r | .createConfirmed r => r.Storable
  | .createReferral sender receiver _ => sender.IsHash ∧ receiver.IsHash
  | _ => True

end StoreCall

/-! ## Sequences of calls on the indexed store -/

namespace IndexedStore

open StoreCall

variable {s : IndexedStore} {r : Registration}

theorem Filed.putRegistration (hs : Filed s) (hr : r.Storable) :
    Filed (IndexedStore.putRegistration r s).2 := by
  have hfiling : Filing s (fun _ => True) (s.view.Stores r) False _ :=
    hs.filing_putRegistration hr trivial
  exact hfiling.filed hs

theorem Filed.createConfirmed (hs : Filed s) (hr : r.Storable) :
    Filed (IndexedStore.createConfirmed r s).2 := by
  have hfiling : Filing s s.SparesConfirmed (s.Creates r) False _ := hs.filing_createConfirmed hr
  exact hfiling.filed hs

theorem Filed.createReferral (hs : Filed s) {sender receiver : Owner} (time : Timestamp)
    (hsender : sender.IsHash) (hreceiver : receiver.IsHash) :
    Filed (IndexedStore.createReferral sender receiver time s).2 := by
  have hfiling : Filing s (fun _ => True) _ False _ :=
    hs.filing_createReferral time hsender hreceiver
  exact hfiling.filed hs

theorem Filed.changeReferral (hs : Filed s) (o : Owner) {move : Referral → Except String Referral}
    (hmove : ∀ f f', move f = .ok f' → f'.receiver = f.receiver ∧ f'.sender = f.sender) :
    Filed (IndexedStore.changeReferral o move s).2 := by
  have hfiling : Filing s (fun _ => True) _ _ _ := hs.filing_changeReferral o hmove
  exact hfiling.filed hs

/-- The denylist is in none of the tables that records and their indexes are in. -/
theorem Filed.putFraudDomain (hs : Filed s) (domain : String) :
    Filed (Store.putFraudDomain domain s).2 := by
  show Filed (put .fraudDomains (domainKey domain) [] s).2
  unfold put change
  split
  · exact ⟨hs.registrations, hs.referrals, hs.codes, hs.pairs⟩
  · exact hs

/-- A write that is answered leaves what it left. -/
theorem Filed.answered {op : StoreM IndexedStore Unit} (h : Filed (op s).2) :
    Filed ((do op; return StoreReply.done : StoreM IndexedStore StoreReply) s).2 := by
  rw [Computation.bind_pure_snd]
  exact h

/-- **A call keeps the store filed**, whether it succeeds or fails. -/
theorem keeps_filed : Keeps Fits Filed := by
  intro c s hc hs
  cases c with
  | putRegistration r => exact .answered (hs.putRegistration hc)
  | confirmRegistration o time =>
    exact .answered ((hs.filing_confirmRegistration o time).filed hs)
  | createConfirmed r => exact .answered (hs.createConfirmed hc)
  | createReferral sender receiver time => exact .answered (hs.createReferral time hc.1 hc.2)
  | installReferral o time =>
    exact .answered (hs.changeReferral o (Referral.install_parties time))
  | confirmReferral o a b time =>
    exact .answered (hs.changeReferral o (Referral.confirm_parties a b time))
  | putFraudDomain domain => exact .answered (hs.putFraudDomain domain)
  -- every other call only reads
  | _ => exact hs

/-- A state that calls meet: between two calls, or between two steps of a transaction. A
transaction inside another one begins in the middle of that one. -/
inductive Met : IndexedStore → Prop
  | between {calls : List StoreCall} (fits : EachOf Fits calls) : Met (runAll calls Store.empty).2
  | inside {s : IndexedStore} {steps : List StoreCall} (ending : Ending) (met : Met s)
      (fits : EachOf Fits steps) : Met (runSteps ending steps (s, [])).2.1

theorem Met.filed (h : Met s) : Filed s := by
  induction h with
  | between fits => exact keeps_runAll keeps_filed fits filed_empty
  | inside ending _ fits ih => exact keeps_runSteps keeps_filed ending _ _ fits ih

/-- What the indexes of codes and of pairs are relied on for. -/
structure Indexes (s : IndexedStore) : Prop extends Filed s where
  /-- A code leads to the one registration that has it, or is missed. -/
  byReferralCode : ∀ code, code ≠ "" →
    (∃ r, s.view.HasCode code r ∧ (∀ q, s.view.HasCode code q → q = r) ∧
      s.byReferralCode code = .ok r) ∨
    (∀ r, ¬ s.view.HasCode code r) ∧
      s.byReferralCode code = .error (.notFound ("referral code " ++ code))
  /-- A sender leads to every referral it started, once, and to no other. -/
  referralsOf : ∀ o : Owner, o.IsHash → ∃ fs, s.referralsOf o = .ok fs ∧ fs.Nodup ∧
    ∀ f, f ∈ fs ↔ s.view.Refers f ∧ f.sender = o

/-- **The indexes say what the tables say**, wherever a call may look. -/
theorem indexes_of_met (h : Met s) : Indexes s := by
  have hs := h.filed
  refine { hs with byReferralCode := fun code hcode => ?_, referralsOf := fun o ho => ?_ }
  · have hsearch := hs.search_byReferralCode code
    by_cases hany : ∃ r, s.view.HasCode code r
    · obtain ⟨r, hr⟩ := hany
      have huniq : ∀ q, s.view.HasCode code q → q = r := fun q hq =>
        hr.1.eq hq.1 (hs.coherent.code_injective hq.1 hr.1 (hq.2.trans hr.2.symm))
      exact .inl ⟨r, hr, huniq, hsearch.eq_ok hr huniq hcode⟩
    · have hnone := not_exists.1 hany
      exact .inr ⟨hnone, hsearch.eq_missing hnone hcode⟩
  · exact (hs.listing_referralsOf ho).eq_ok id

/-! ## A code that changes hands -/

namespace Handed

open Sample

/-- A registration of an owner with a code to hand out. -/
def registration (o : Owner) (code : String) : Registration :=
  ⟨o, "a@x.com", ⟨"wallet"⟩, "0000", ⟨100⟩, none, code, none⟩

theorem storable_registration {o : Owner} (ho : o.IsHash) {code : String}
    (hcode : KeyTable.IsKey (Utf8.bytes code)) : (registration o code).Storable where
  owner := ho
  email := (by decide : byteLength "a@x.com" < UInt64.size)
  address := (by unfold KeyTable.IsKey; decide : KeyTable.IsKey (Utf8.bytes "wallet"))
  code := (by decide : byteLength "0000" < UInt64.size)
  ownReferralCode := hcode
  referralCode := nofun

/-- The first owner gives up a code, and the second one takes it in the same transaction.
Another change is undone. -/
def calls : List StoreCall :=
  [.putRegistration (registration first "cafe0001"), .createReferral first second ⟨10⟩,
    .transaction [.putRegistration (registration first "cafe0002"),
      .putRegistration (registration second "cafe0001")] .commit,
    .transaction [.putRegistration (registration first "cafe0003")] .abort]

theorem fits_calls : EachOf Fits calls := by
  have hfirst : first.IsHash := by decide +kernel
  have hsecond : second.IsHash := by decide +kernel
  have hcode : KeyTable.IsKey (Utf8.bytes "cafe0001") ∧ KeyTable.IsKey (Utf8.bytes "cafe0002") ∧
      KeyTable.IsKey (Utf8.bytes "cafe0003") := by
    unfold KeyTable.IsKey
    decide +kernel
  simp only [calls, EachOf, Each, Fits, and_true]
  exact ⟨storable_registration hfirst hcode.1, ⟨hfirst, hsecond⟩,
    ⟨storable_registration hfirst hcode.2.1, storable_registration hsecond hcode.1⟩,
    storable_registration hfirst hcode.2.2⟩

/-- The store after the calls. -/
def after : IndexedStore := (runAll calls Store.empty).2

end Handed

/-- A code leads to the owner who took it, and the undone one is missed. -/
theorem indexes_of_met_handed : Met Handed.after ∧ Indexes Handed.after ∧
    Handed.after.byReferralCode "cafe0001" = .ok (Handed.registration Sample.second "cafe0001") ∧
    Handed.after.byReferralCode "cafe0003" = .error (.notFound "referral code cafe0003") ∧
    Handed.after.referralsOf Sample.first =
      .ok [.start Sample.first Sample.second ⟨10⟩] := by
  have hmet : Met Handed.after := .between Handed.fits_calls
  exact ⟨hmet, indexes_of_met hmet, by decide +kernel, by decide +kernel, by decide +kernel⟩

end IndexedStore

end Onboarding
