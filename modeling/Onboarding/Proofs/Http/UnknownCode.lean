import Onboarding.Proofs.Http.Refusal
import Onboarding.Proofs.Service.Failure
import Onboarding.Proofs.Service.UnknownCode
import Onboarding.Proofs.Service.Wallets
/-!
# Unknown codes over HTTP — the client is told, unless the code is empty

A request that passes on a code goes to the service with the code trimmed, and is answered
with the status of the service's error. `World.RefusesCode` puts together what the calls and
the routes make of a code that no other owner hands out: it is the client's error on all four
ways, and nothing changes. It holds for every code but one, on one kind of store
(`refusesCode_iff`). The route that registers leaves out a code that is empty; the one that
tracks passes it on.
-/

namespace Onboarding

open StoreView

namespace Server

section Answers

variable {σ : Type} {q : HttpRequest}

/-- A request is answered with a status, and nothing is stored, mailed or paid for it. -/
structure Declines [Store σ] (settings : Settings) (s : Server σ) (q : HttpRequest)
    (status : Nat) : Prop where
  answer : ∃ r, (handle settings q s).1 = .ok r ∧ r.status = status
  untouched : s.world.Untouched False (handle settings q s).2.world

variable [Store σ] {settings : Settings} {s : Server σ} {e : ServiceError} {w : World σ}

/-- A handler that fails with an error of the service is declined with its status. -/
theorem declines_of_error {name : String} {success : Json → Response} {h : Handler σ Json}
    (hhandle : handle settings q s = counted name success h s)
    (herror : h s = (.error (.service e), { s with world := w })) (hwhole : e.brokeOff = false)
    (huntouched : s.world.Untouched False w) :
    s.Declines settings q (RequestError.service e).status := by
  unfold counted at hhandle
  rw [herror] at hhandle
  simp only [hwhole, Bool.false_eq_true, if_false] at hhandle
  constructor
  · rw [hhandle]
    exact ⟨_, rfl, rfl⟩
  · rw [hhandle]
    exact huntouched

/-- A call to track that fails is declined. -/
theorem declines_track (settings : Settings) (s : Server σ) {b : TrackBody}
    (h : q.Posts .trackReferral TrackBody.schema b) {owner : Owner}
    (howner : Owner.parse b.owner = some owner)
    (herror : Onboarding.trackReferral owner (trim b.referralCode) s.world = (.error e, w))
    (hwhole : e.brokeOff = false) (huntouched : s.world.Untouched False w) :
    s.Declines settings q (RequestError.service e).status := by
  have htrack : trackReferral b s = (.error (.service e), { s with world := w }) := by
    have howner' : pathOwner b.owner s = (.ok owner, s) := by
      unfold pathOwner
      rw [howner]
      rfl
    unfold trackReferral
    rw [Computation.bind_of_ok howner']
    unfold call
    rw [herror]
  have hhandle : handle settings q s = silent "referral_track" (trackReferral b) s := by
    rw [handle_of_posts h]
    exact congrFun (withBody_of_posts h _) s
  exact declines_of_error hhandle (Computation.bind_of_error htrack) hwhole huntouched

/-- A call to register that fails is declined. -/
theorem declines_register (settings : Settings) (s : Server σ) {b : RegisterBody}
    (h : q.Posts .register RegisterBody.schema b) {email : String}
    (hemail : Email.normalize? b.email = some email)
    (herror : Onboarding.register settings email ⟨trim b.address⟩
      ((b.referralCode.map trim).filter (!·.isEmpty)) s.world = (.error e, w))
    (hwhole : e.brokeOff = false) (huntouched : s.world.Untouched False w) :
    s.Declines settings q (RequestError.service e).status := by
  have hregister : register settings b s = (.error (.service e), { s with world := w }) := by
    unfold register
    rw [hemail]
    refine Computation.bind_of_error ?_
    unfold call
    rw [herror]
  exact declines_of_error (handle_of_registers h settings s) hregister hwhole huntouched

end Answers

end Server

/-! ## Codes that no other owner hands out -/

/-- An owner has no inviter yet, and nobody else hands out the code. -/
structure Contents.Uninvited (c : Contents) (owner : Owner) (code : String) : Prop where
  first : ∀ q, c.registration owner = some q → q.referralCode = none
  only : c.OnlyOf code owner

/-- What a world makes of a code for an owner who is not confirmed and has no inviter. -/
structure World.RefusesCode {σ : Type} [Store σ] [StoreView σ] (settings : Settings)
    (w : World σ) (owner : Owner) (code : String) : Prop where
  tracking : trackReferral owner code w = (.error .invalidReferralCode, w)
  trackingRoute : ∀ (m : Metrics) q b, q.Posts .trackReferral TrackBody.schema b →
    Owner.parse b.owner = some owner → trim b.referralCode = code →
      Server.Declines settings ⟨w, m⟩ q 400
  /-- No email is registered with the code. Where it would be with another code, or with none,
  the code is what is wrong. -/
  registering : ∀ email address, byteLength email < UInt64.size → byteLength code < UInt64.size →
    (contents w.store).Uninvited (.ofEmail email) code → ∃ e w',
      register settings email address (some code) w = (.error e, w') ∧ w.Untouched False w' ∧
        ((∃ code? o, (register settings email address code? w).1 = .ok o) →
          e = .invalidReferralCode)
  registeringRoute : ∀ (m : Metrics) q b email, q.Posts .register RegisterBody.schema b →
    Email.normalize? b.email = some email →
    (b.referralCode.map trim).filter (!·.isEmpty) = some code →
    (contents w.store).Uninvited (.ofEmail email) code →
    (∃ code? o, (register settings email ⟨trim b.address⟩ code? w).1 = .ok o) →
      Server.Declines settings ⟨w, m⟩ q 400

section Refused

variable {kind : StoreKind} {w : World kind.State} {code : String}

/-- No email is registered with such a code. -/
theorem register_declined (hw : w.Good) (hsafe : failing w.store = [])
    (hrefusal : kind.refusal code = .invalidReferralCode) (settings : Settings) {email : String}
    (address : WalletAddress) (hemail : byteLength email < UInt64.size)
    (hcode : byteLength code < UInt64.size)
    (h : (contents w.store).Uninvited (.ofEmail email) code) :
    ∃ e w', register settings email address (some code) w = (.error e, w') ∧
      w.Untouched False w' ∧
        ((∃ code? o, (register settings email address code? w).1 = .ok o) →
          e = .invalidReferralCode) := by
  have hrefused : ∀ code? o, (register settings email address code? w).1 = .ok o →
      (register settings email address (some code) w).1 = .error (kind.refusal code) :=
    fun code? o => register_refused hw hsafe hemail hcode h.first h.only
  rcases hout : register settings email address (some code) w with ⟨e | o, w'⟩
  · refine ⟨e, w', rfl, register_failsWithin _ _ _ _ _ _ hw.quiet hout, ?_⟩
    rintro ⟨code?, o, hok⟩
    have herror := hrefused code? o hok
    rw [hout] at herror
    exact (Except.error.inj herror).trans hrefusal
  · -- it would have been refused for this very code
    have herror := hrefused (some code) o (by rw [hout])
    rw [hout] at herror
    cases herror

theorem World.Good.refusesCode (hw : w.Good) (hsafe : failing w.store = []) (settings : Settings)
    {owner : Owner} {r : Registration} (hr : (contents w.store).registration owner = some r)
    (hopen : r.confirmedAt = none) (hfirst : r.referralCode = none)
    (honly : (contents w.store).OnlyOf code owner)
    (hrefusal : kind.refusal code = .invalidReferralCode) : w.RefusesCode settings owner code := by
  have htrack := trackReferral_refused hw hsafe hr hopen hfirst honly
  rw [hrefusal] at htrack
  refine ⟨htrack, ?_, fun email address => register_declined hw hsafe hrefusal settings address, ?_⟩
  · intro m q b hq howner htrim
    rw [← htrim] at htrack
    have hdeclined := Server.declines_track settings ⟨w, m⟩ hq howner htrack rfl (.refl w)
    exact hdeclined
  · intro m q b email hq hnormal hpassed h hok
    have hshort := RegisterBody.short_of_ofJsonFront hq.sized hq.body
    obtain ⟨e, w', herror, huntouched, hinvalid⟩ :=
      register_declined hw hsafe hrefusal settings ⟨trim b.address⟩
        (hshort.byteLength_email hnormal) (hshort.byteLength_code hpassed) h
    rw [← hpassed, hinvalid hok] at herror
    have hdeclined := Server.declines_register settings ⟨w, m⟩ hq hnormal herror rfl huntouched
    exact hdeclined

end Refused

/-- **A code that no other owner hands out is the client's error, unless it is empty and the
store is kept in tables of bytes.** -/
theorem refusesCode_iff (kind : StoreKind) (settings : Settings) (clock : Timestamp)
    (acts : List Act) {w : World kind.State}
    (hw : (World.start clock : World kind.State).run settings acts = w)
    (hsafe : failing w.store = []) {owner : Owner} {r : Registration}
    (hr : (contents w.store).registration owner = some r) (hopen : r.confirmedAt = none)
    (hfirst : r.referralCode = none) {code : String}
    (honly : (contents w.store).OnlyOf code owner) :
    (w.RefusesCode settings owner code ↔ ¬ (kind = .indexed ∧ code = "")) ∧
      (kind = .indexed ∧ code = "" →
        trackReferral owner code w = (.error (.store KeyTable.badKey), w) ∧
          ∀ (m : Metrics) q b, q.Posts .trackReferral TrackBody.schema b →
            Owner.parse b.owner = some owner → trim b.referralCode = code →
              Server.Declines settings ⟨w, m⟩ q 500) := by
  have hgood : w.Good := hw ▸ World.good_run settings (World.good_start clock) acts
  have htrack := trackReferral_refused hgood hsafe hr hopen hfirst honly
  refine ⟨⟨fun h => ?_, fun hkey => ?_⟩, fun hlacks => ?_⟩
  · rw [h.tracking] at htrack
    exact StoreKind.refusal_eq_iff.1 (Except.error.inj (congrArg Prod.fst htrack)).symm
  · exact hgood.refusesCode hsafe settings hr hopen hfirst honly
      (StoreKind.refusal_eq_iff.2 hkey)
  · rw [StoreKind.refusal, if_pos hlacks] at htrack
    refine ⟨htrack, fun m q b hq howner htrim => ?_⟩
    rw [← htrim] at htrack
    have hdeclined := Server.declines_track settings ⟨w, m⟩ hq howner htrack rfl (.refl w)
    exact hdeclined

/-! ## A code that is no key -/

namespace Lone

/-- One owner registers. -/
def acts : List Act :=
  [.call (.register ⟨"a@x.com", Shared.byteLength_first⟩ Shared.wallet none)]

/-- The world after that. -/
def world : World StoreKind.indexed.State := (World.start ⟨1700000000⟩).run { } acts

/-- The registration that is left. -/
def row : Registration :=
  ⟨Shared.first, "a@x.com", Shared.wallet, "00000000000000000000000000000001", ⟨1700000000⟩,
    none, "00000002", none⟩

theorem good_world : world.Good := World.good_run _ (World.good_start _) acts

theorem failing_world : failing world.store = [] := rfl

theorem registration_eq : (contents world.store).registration Shared.first = some row := by
  have hfound : Store.registration world.store Shared.first = .ok row := by
    unfold world World.run acts
    simp only [List.foldl_cons, List.foldl_nil, World.act, Call.after, register,
      Shared.ofEmail_first]
    decide +kernel
  exact (LawfulStore.registration Shared.first good_world.sound).of_found hfound

theorem byReferralCode_eq : Store.byReferralCode world.store "inviter" =
    .error (.notFound "referral code inviter") := by
  unfold world World.run acts
  simp only [List.foldl_cons, List.foldl_nil, World.act, Call.after, register,
    Shared.ofEmail_first]
  decide +kernel

/-- Nobody hands out this code. -/
theorem onlyOf_unknown : (contents world.store).OnlyOf "inviter" Shared.first := by
  have hsearch := LawfulStore.byReferralCode "inviter" good_world.sound
  intro q hq
  exact absurd hq (hsearch.of_missing (congrArg Except.found? byReferralCode_eq) q)

/-- Nobody hands out an empty code: every code is a key. -/
theorem onlyOf_empty : (contents world.store).OnlyOf "" Shared.first := by
  rintro q ⟨hheld, hcode⟩
  have hkey := ((LawfulStore.coherent good_world.sound).storable hheld).ownReferralCode
  rw [hcode] at hkey
  exact absurd rfl hkey.1

end Lone

/-- A code that nobody hands out is refused. -/
theorem refusesCode_iff_lone :
    failing Lone.world.store = [] ∧
      (contents Lone.world.store).registration Shared.first = some Lone.row ∧
      Lone.row.confirmedAt = none ∧ Lone.row.referralCode = none ∧
      (contents Lone.world.store).OnlyOf "inviter" Shared.first ∧
      Lone.world.RefusesCode { } Shared.first "inviter" := by
  refine ⟨Lone.failing_world, Lone.registration_eq, rfl, rfl, Lone.onlyOf_unknown, ?_⟩
  have hiff := refusesCode_iff .indexed { } ⟨1700000000⟩ Lone.acts (w := Lone.world) rfl
    Lone.failing_world Lone.registration_eq rfl rfl Lone.onlyOf_unknown
  exact hiff.1.2 (by decide)

/-- An empty code that nobody hands out is answered as a failure of the store. -/
theorem not_refusesCode_empty :
    (contents Lone.world.store).registration Shared.first = some Lone.row ∧
      Lone.row.confirmedAt = none ∧ Lone.row.referralCode = none ∧
      (contents Lone.world.store).OnlyOf "" Shared.first ∧
      trackReferral Shared.first "" Lone.world = (.error (.store KeyTable.badKey), Lone.world) ∧
      ¬ Lone.world.RefusesCode { } Shared.first "" := by
  have htrack := trackReferral_refused Lone.good_world Lone.failing_world Lone.registration_eq rfl
    rfl Lone.onlyOf_empty
  refine ⟨Lone.registration_eq, rfl, rfl, Lone.onlyOf_empty, htrack, fun h => ?_⟩
  cases h.tracking.symm.trans htrack

end Onboarding
