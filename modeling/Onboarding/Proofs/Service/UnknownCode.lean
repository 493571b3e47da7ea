import Onboarding.Proofs.Service.Run
/-!
# Unknown codes — what is answered for a code that nobody else hands out

A code is looked up in one place, where an inviter is attached (`Enrollment.attach_refused`).
Whoever passes on a code that no other owner hands out is refused there, with everything
else in order: an owner who is tracked has written nothing by then, and an owner who registers
goes exactly as far as without a code (`Enrollment.enroll_refused`). What is answered is the
`StoreKind.refusal` of the code. It is the client's error but for the empty code, for which
the store kept in tables of bytes has no key; the one kept in memory looks for it like for
any other.
-/

namespace Onboarding

open StoreView

/-- No owner but one hands out a code. -/
def Contents.OnlyOf (c : Contents) (code : String) (owner : Owner) : Prop :=
  ∀ q, c.HasCode code q → q.owner = owner

/-! ## Looking a code up -/

namespace StoreKind

variable {kind : StoreKind}

/-- What a code that no other owner hands out is answered with. -/
def refusal (kind : StoreKind) (code : String) : ServiceError :=
  if kind = .indexed ∧ code = "" then .store KeyTable.badKey else .invalidReferralCode

/-- It is the client's error, unless the store has no key for the code. -/
theorem refusal_eq_iff {code : String} :
    kind.refusal code = .invalidReferralCode ↔ ¬ (kind = .indexed ∧ code = "") := by
  unfold refusal
  split <;> simp_all

/-- **A code is looked up** unless the store has no key for it. -/
theorem search_code {s : kind.State} (hs : Sound s) (code : String) :
    Search ("referral code " ++ code) ((contents s).HasCode code)
      (.getByReferralCode ∈ failing s ∨ kind = .indexed ∧ code = "")
      (Store.byReferralCode s code) := by
  cases kind with
  | table =>
    exact TableStore.search_read .inl
      (TableStore.search_byReferralCode (TableStore.keyed_of_sound hs) code)
  | indexed => exact (hs.filed.search_byReferralCode code).mono fun h => .inr ⟨rfl, h⟩

end StoreKind

/-- An empty code is no key. -/
theorem IndexedStore.byReferralCode_empty (s : IndexedStore) :
    Store.byReferralCode s "" = .error KeyTable.badKey := rfl

/-! ## Transactions that fail -/

/-- A transaction whose body fails leaves the store as it was. -/
theorem ServiceM.transaction_of_error {σ α : Type} [Store σ] [LawfulStore σ] {w : World σ}
    {body : TransactionM σ α} {e : ServiceError} {p : σ × Randomness}
    (hbegin : .transaction ∉ failing w.store) (h : body (w.store, w.random) = (.error e, p)) :
    transaction body w = (.error e, { w with random := p.2 }) := by
  have htransaction : Store.transaction .store body (w.store, w.random) =
      (.error e, (w.store, p.2)) := by
    unfold Store.transaction
    rw [LawfulStore.canBegin hbegin, h]
  have htry : tryTransaction body w = (.ok (.error e), { w with random := p.2 }) := by
    unfold tryTransaction
    rw [htransaction]
  unfold transaction
  rw [Computation.bind_of_ok htry]
  rfl

/-- A registration whose code is free is put where putting is not made to fail. -/
theorem LawfulStore.putRegistration_of_free {σ : Type} [Store σ] [LawfulStore σ] {s : σ}
    (hs : Sound s) (hquiet : .setRequest ∉ failing s) {r : Registration} (hr : r.Storable)
    (hopen : ∀ q, (contents s).registration r.owner = some q → q.isConfirmed = false)
    (hfree : (contents s).CodeFree r) :
    ∃ s', Store.putRegistration r s = (.ok (), s') ∧ Becomes s ((contents s).put r) s' := by
  have hwritten := putRegistration hs hr hopen
  have hrefused : ∀ e, ¬ (contents s).Stores r (.error e) := by
    intro e h
    cases h with
    | taken htaken => exact htaken hfree
  obtain ⟨s', hput⟩ := hwritten.eq_ok hrefused hquiet
  obtain ⟨hstored, hbecomes⟩ := hwritten.of_eq_ok hput
  rw [(Contents.stores_ok hstored).2] at hbecomes
  exact ⟨s', hput, hbecomes⟩

namespace Enrollment

variable {σ : Type} [Store σ] {s s' : σ} {g g' : Randomness} {receiver : Owner} {code : String}
  {now : Timestamp}

/-- A code that cannot be looked up is answered with the failure. -/
theorem attach_of_error {reason : String}
    (h : Store.byReferralCode s code = .error (.backend reason)) :
    attach receiver code now (s, g) = (.error (.store (.backend reason)), (s, g)) := by
  have hfind : TransactionM.find (Store.byReferralCode · code) (s, g) =
      (.error (.store (.backend reason)), (s, g)) := by
    unfold TransactionM.find TransactionM.read Body.read
    dsimp only
    rw [h]
    rfl
  exact Computation.bind_of_error hfind

/-- An owner without an inviter who is not confirmed is tracked as far as the inviter is
attached. -/
theorem trackIn_of_attach {r : Registration} {e : ServiceError} {p : σ × Randomness}
    (hr : Store.registration s receiver = .ok r) (hopen : r.confirmedAt = none)
    (hfirst : r.referralCode = none) (h : attach receiver code now (s, g) = (.error e, p)) :
    trackIn receiver code now (s, g) = (.error e, p) := by
  have hfind := TransactionM.find_of_ok (f := (Store.registration · receiver)) (g := g) hr
  unfold trackIn
  rw [Computation.bind_of_ok hfind]
  have hfree : ¬ (r.isConfirmed || r.referralCode.isSome) = true := by
    simp [Registration.isConfirmed, hopen, hfirst]
  dsimp only
  rw [if_neg hfree]
  exact Computation.bind_of_error h

/-- A renewal of an owner without an inviter goes as far as the inviter is attached. -/
theorem renew_of_attach {r : Registration} {e : ServiceError} {p : σ × Randomness}
    (hfirst : r.referralCode = none) (h : attach r.owner code now (s, g) = (.error e, p)) :
    renew r (some code) now (s, g) = (.error e, p) := by
  unfold renew
  rw [hfirst]
  exact Computation.bind_of_error (x := attach r.owner code now) h

/-- The end of a first registration: it is put, and its inviter is attached. -/
def enter (r : Registration) : TransactionM σ Registration := do
  TransactionM.write (Store.putRegistration r)
  match r.referralCode with
  | some given => attach r.owner given r.createdAt
  | none => pure ()
  return r

/-- What is left of a first registration whose wallet is free. -/
def draw (owner : Owner) (email : String) (address : WalletAddress) (code? : Option String)
    (now : Timestamp) : TransactionM σ Registration := do
  let code ← TransactionM.drawCode Randomness.verificationCode
  let own ← freeCode codeAttempts
  enter ⟨owner, email, address, code, now, none, own, code?⟩

theorem create_of_free {owner : Owner} {email : String} {address : WalletAddress}
    {found : Option Registration}
    (hfind : TransactionM.find (Store.byAddress · address) (s, g) = (.ok found, (s, g)))
    (hfree : ∀ bound, found = some bound → bound.owner = owner) (code? : Option String) :
    create owner email address code? now (s, g) = draw owner email address code? now (s, g) := by
  unfold create
  rw [Computation.bind_of_ok hfind]
  cases found with
  | none => rfl
  | some bound =>
    dsimp only
    rw [if_neg (not_not.2 (hfree bound rfl))]
    rfl

variable [LawfulStore σ]

/-- **Until it is put, a first registration goes the same way with every code** that is passed on
with it: the wallet is free, and the same codes are drawn. -/
theorem create_eq_enter (hs : Sound s) {owner : Owner} {email : String} {address : WalletAddress}
    {code? : Option String} {r : Registration} {p : σ × Randomness}
    (h : create owner email address code? now (s, g) = (.ok r, p)) :
    ∃ code own g₁ g₂, Randomness.verificationCode g = (.ok code, g₁) ∧
      freeCode codeAttempts (s, g₁) = (.ok own, (s, g₂)) ∧
      ∀ given?, create owner email address given? now (s, g) =
        enter ⟨owner, email, address, code, now, none, own, given?⟩ (s, g₂) := by
  obtain ⟨found, ⟨s₀, g₀⟩, hfind, h₀⟩ := Computation.bind_eq_ok h
  obtain ⟨-, rfl, rfl⟩ := TransactionM.find_eq_ok hfind
  have hfree : ∀ bound, found = some bound → bound.owner = owner := by
    rintro bound rfl
    by_contra hother
    dsimp only at h₀
    rw [if_pos hother] at h₀
    cases h₀
  rw [create_of_free hfind hfree] at h
  obtain ⟨code, ⟨s₁, g₁⟩, hdraw, h₁⟩ := Computation.bind_eq_ok h
  obtain ⟨own, ⟨s₂, g₂⟩, hown, -⟩ := Computation.bind_eq_ok h₁
  obtain ⟨hdrawn, rfl⟩ := TransactionM.drawCode_eq_ok hdraw
  obtain ⟨rfl, -, -⟩ := freeCode_ok hs hown
  refine ⟨code, own, g₁, g₂, hdrawn, hown, fun given? => ?_⟩
  rw [create_of_free hfind hfree]
  unfold draw
  rw [Computation.bind_of_ok hdraw, Computation.bind_of_ok hown]

section Refused

variable {kind : StoreKind} {s : kind.State}

/-- **Nobody is attached by a code that no other owner hands out.** -/
theorem attach_refused (now : Timestamp) (g : Randomness) (hs : Sound s)
    (hquiet : .getByReferralCode ∉ failing s) (honly : (contents s).OnlyOf code receiver) :
    attach receiver code now (s, g) = (.error (kind.refusal code), (s, g)) := by
  by_cases hlacks : kind = .indexed ∧ code = ""
  · obtain ⟨rfl, rfl⟩ := hlacks
    exact attach_of_error (IndexedStore.byReferralCode_empty s)
  rw [StoreKind.refusal, if_neg hlacks]
  have hsearch := StoreKind.search_code hs code
  have hquiet' := not_or.2 ⟨hquiet, hlacks⟩
  unfold attach
  rcases hfound : Store.byReferralCode s code with e | q <;> rw [hfound] at hsearch
  · cases hsearch with
    | missing _ =>
      have hfind : TransactionM.find (Store.byReferralCode · code) (s, g) = (.ok none, (s, g)) :=
        TransactionM.find_of_missing hfound
      rw [Computation.bind_of_ok hfind]
      rfl
    | broken hbroken => exact absurd hbroken hquiet'
  · have hfind := TransactionM.find_of_ok (f := (Store.byReferralCode · code)) (g := g) hfound
    rw [Computation.bind_of_ok hfind]
    dsimp only
    rw [if_pos (honly q hsearch.of_ok)]
    rfl

/-- A first registration is put before its inviter is looked for, who could only be the owner
that was put. -/
theorem enter_refused (hs : Sound s) (hsafe : failing s = []) {r : Registration}
    (hr : r.Storable) (habsent : (contents s).registration r.owner = none)
    (hfree : (contents s).CodeFree r) (hcode : r.referralCode = some code)
    (honly : (contents s).OnlyOf code r.owner) :
    ∃ p, enter r (s, g) = (.error (kind.refusal code), p) := by
  have hquiet : ∀ op, op ∉ failing s := by simp [hsafe]
  obtain ⟨s', hput, hbecomes⟩ := LawfulStore.putRegistration_of_free hs (hquiet _) hr
    (fun q hq => by rw [habsent] at hq; cases hq) hfree
  have honly' : (contents s').OnlyOf code r.owner := by
    rintro q ⟨hq, hqcode⟩
    rw [hbecomes.contents_eq, Contents.holds_put] at hq
    rcases hq with rfl | ⟨-, hq⟩
    · rfl
    · exact honly q ⟨hq, hqcode⟩
  have hquiet' : .getByReferralCode ∉ failing s' := hbecomes.failing_eq ▸ hquiet _
  have hattach := attach_refused r.createdAt g hbecomes.sound hquiet' honly'
  refine ⟨(s', g), ?_⟩
  unfold enter
  rw [Computation.bind_of_ok (TransactionM.write_of_ok hput), hcode]
  exact Computation.bind_of_error (x := attach r.owner code r.createdAt) hattach

/-- **A registration that some code leads to, or none,** is refused for a code that no other
owner hands out. -/
theorem enroll_refused (hs : Sound s) (hsafe : failing s = []) {settings : Settings}
    {owner : Owner} {email : String} {address : WalletAddress} {code? : Option String}
    {r : Registration} {p : kind.State × Randomness} (howner : owner.IsHash)
    (hemail : byteLength email < UInt64.size)
    (haddress : KeyTable.IsKey (Utf8.bytes address.text)) (hcode : byteLength code < UInt64.size)
    (hfirst : ∀ q, (contents s).registration owner = some q → q.referralCode = none)
    (honly : (contents s).OnlyOf code owner)
    (h : enroll settings owner email address code? now (s, g) = (.ok r, p)) :
    ∃ p', enroll settings owner email address (some code) now (s, g) =
      (.error (kind.refusal code), p') := by
  obtain ⟨found, ⟨s₀, g₀⟩, hfind, h₀⟩ := Computation.bind_eq_ok h
  obtain ⟨hfound, rfl, rfl⟩ := TransactionM.find_eq_ok hfind
  have hsearch := LawfulStore.registration owner hs
  unfold enroll
  rw [Computation.bind_of_ok hfind]
  cases found with
  | some old =>
    have hold := hsearch.of_found (found?_eq_some hfound)
    have hrefused := attach_refused now g₀ hs (by simp [hsafe]) honly
    rw [← (LawfulStore.coherent hs).owner_eq hold] at hrefused
    dsimp only at h₀ ⊢
    split at h₀
    · cases h₀
    rename_i hopen
    split at h₀
    · cases h₀
    rename_i hwaited
    rw [if_neg hopen, if_neg hwaited]
    exact ⟨_, renew_of_attach (hfirst old hold) hrefused⟩
  | none =>
    have habsent := Option.eq_none_iff_forall_ne_some.2 (hsearch.of_missing hfound)
    obtain ⟨drawn, own, g₁, g₂, hdrawn, hown, hcreate⟩ := create_eq_enter hs h₀
    obtain ⟨-, hlength, hnobody⟩ := freeCode_ok hs hown
    have hstorable := storable_first now howner hemail haddress
      (fun c hc => Option.some.inj hc ▸ hcode) hdrawn hlength
    dsimp only
    rw [hcreate (some code)]
    exact enter_refused hs hsafe hstorable habsent (fun q hq => absurd hq (hnobody q)) rfl honly

end Refused

end Enrollment

/-! ## Calls -/

section Calls

variable {kind : StoreKind} {w : World kind.State} {code : String}

/-- **An owner without an inviter who is not confirmed is not tracked** by a code that no other
owner hands out, and nothing changes. -/
theorem trackReferral_refused (hw : w.Good) (hsafe : failing w.store = []) {receiver : Owner}
    {r : Registration} (hr : (contents w.store).registration receiver = some r)
    (hopen : r.confirmedAt = none) (hfirst : r.referralCode = none)
    (honly : (contents w.store).OnlyOf code receiver) :
    trackReferral receiver code w = (.error (kind.refusal code), w) := by
  have hfound := LawfulStore.registration_eq_ok hw.sound hsafe hr
  have hattach := Enrollment.attach_refused w.clock w.random hw.sound (by simp [hsafe]) honly
  have htrack := Enrollment.trackIn_of_attach hfound hopen hfirst hattach
  unfold trackReferral
  rw [Computation.bind_of_ok (ServiceM.now_apply w)]
  exact ServiceM.transaction_of_error (by simp [hsafe]) htrack

/-- **An email that would be registered without a code, or with another one,** is not registered
with a code that no other owner hands out. -/
theorem register_refused (hw : w.Good) (hsafe : failing w.store = []) {settings : Settings}
    {email : String} {address : WalletAddress} {code? : Option String} {o : Owner}
    (hemail : byteLength email < UInt64.size) (hcode : byteLength code < UInt64.size)
    (hfirst : ∀ q, (contents w.store).registration (.ofEmail email) = some q →
      q.referralCode = none)
    (honly : (contents w.store).OnlyOf code (.ofEmail email))
    (h : (register settings email address code? w).1 = .ok o) :
    (register settings email address (some code) w).1 = .error (kind.refusal code) := by
  unfold register at h ⊢
  rcases Enrollment.checkAddress_cases settings address w with ⟨e, hcheck⟩ | ⟨hcheck, haddress⟩
  · rw [Computation.bind_of_error hcheck] at h
    cases h
  rw [Computation.bind_of_ok hcheck] at h ⊢
  rcases ServiceM.read_cases (Store.isFraudEmail · email) w with
    ⟨listed, -, hread⟩ | ⟨e, -, hread⟩
  swap
  · rw [Computation.bind_of_error hread] at h
    cases h
  rw [Computation.bind_of_ok hread] at h ⊢
  cases listed with
  | true => cases h
  | false =>
    simp only [Bool.false_eq_true, if_false] at h ⊢
    rw [Computation.bind_of_ok (ServiceM.now_apply w)] at h ⊢
    rcases ServiceM.transaction_cases
      (Enrollment.enroll settings (.ofEmail email) email address code? w.clock) w with
      ⟨r, s, g, hbody, -⟩ | ⟨e, g, -, htransaction⟩
    · obtain ⟨p, hrefused⟩ := Enrollment.enroll_refused hw.sound hsafe (Owner.isHash_ofEmail email)
        hemail haddress hcode hfirst honly hbody
      have htransaction := ServiceM.transaction_of_error (by simp [hsafe]) hrefused
      rw [Computation.bind_of_error htransaction]
    · rw [Computation.bind_of_error htransaction] at h
      cases h

end Calls

end Onboarding
