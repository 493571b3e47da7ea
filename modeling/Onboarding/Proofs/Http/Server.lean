import Onboarding.Http.Server
import Onboarding.Proofs.Email
import Onboarding.Proofs.Schema.Json
import Onboarding.Proofs.Service.Run
import Onboarding.Proofs.Service.Stakes
import Std.Data.String.ToNat
/-!
# The server — what a request enters into the books, and how it is counted

A request makes one entry, and it is answered with success exactly when the entry is
one. `Handled` says so of a handler and of the two counters that it moves itself;
`Served` says it of the whole request, which is also counted by route and status.
`handle_served` is the fact that whole runs are built on.
-/

namespace Onboarding

open StoreView

/-! ## Counters -/

/-- The route that is asked for a success. -/
def Success.route : Success → String
  | registered => "register"
  | confirmed => "confirm"
  | granted => "testnet_stake"

/-- What holds of all successes can be tried out on each. -/
instance (P : Success → Prop) [DecidablePred P] : Decidable (∀ k, P k) :=
  decidable_of_iff (P .registered ∧ P .confirmed ∧ P .granted)
    ⟨fun h k => by cases k <;> simp [h], fun h => ⟨h _, h _, h _⟩⟩

/-- What a route is asked for, if that is a success of its own. -/
def Route.success? : Route → Option Success
  | .register => some .registered
  | .confirm _ _ => some .confirmed
  | .testnetStake => some .granted
  | _ => none

/-- The route of a request. -/
def HttpRequest.route? (q : HttpRequest) : Option Route :=
  (Target.path? q.target).bind Route.ofPath?

/-- A request is answered on a route. -/
structure HttpRequest.Reaches (q : HttpRequest) (route : Route) : Prop where
  formed : Server.isRequest q = true
  routed : q.route? = some route
  posted : route.method = .post → q.method = "POST"

namespace Metrics

/-- Requests are kept in the order of their routes and, on a route, of their statuses. -/
instance transCmp_request : Std.TransCmp
    (compareLex (compareOn (·.1)) (compareOn (·.2)) :
      String × String → String × String → Ordering) :=
  inferInstance

/-- How many requests on a route were answered with a status. -/
def handled (m : Metrics) (route : String) (status : Nat) : Nat :=
  m.requests[(route, toString status)]?.getD 0

/-- A success that is counted on its own. Grants are not. -/
def credit (m : Metrics) : Option Success → Metrics
  | some .registered => { m with registrations := m.registrations + 1 }
  | some .confirmed => { m with confirmations := m.confirmations + 1 }
  | _ => m

theorem handled_congr {m m' : Metrics} (h : m'.requests = m.requests) {route : String}
    {status : Nat} : m'.handled route status = m.handled route status := by
  unfold handled
  rw [h]

/-- **A request is counted** under its route and its status, and nowhere else. -/
theorem handled_observe (m : Metrics) (route route' : String) (status status' : Nat)
    (seconds : Float) : (m.observe route status seconds).handled route' status' =
      m.handled route' status' + if route = route' ∧ status = status' then 1 else 0 := by
  unfold handled observe
  dsimp only
  rw [Std.ExtTreeMap.getElem?_alter]
  -- two keys are one exactly where routes and written statuses agree
  have hkey : compareLex (compareOn (·.1)) (compareOn (·.2)) (route, toString status)
      (route', toString status') = .eq ↔ route = route' ∧ status = status' := by
    rw [compareLex_eq_eq, compareOn, compareOn, Std.LawfulEqOrd.compare_eq_iff_eq,
      Std.LawfulEqOrd.compare_eq_iff_eq]
    exact and_congr_right fun _ => Nat.repr_inj
  by_cases h : route = route' ∧ status = status'
  · rw [if_pos (hkey.2 h), if_pos h, h.1, h.2]
    rfl
  · rw [if_neg (mt hkey.1 h), if_neg h]
    rfl

end Metrics

/-- No failure has the status of a success. -/
theorem RequestError.status_ne (e : RequestError) : e.status ≠ 200 := by
  unfold RequestError.status
  split <;> decide

/-- What stands in a request to register is no longer than a body may be. -/
structure RegisterBody.Short (b : RegisterBody) : Prop where
  email : b.email.toList.length ≤ Server.maxBody
  code : ∀ c, b.referralCode = some c → c.toList.length ≤ Server.maxBody

namespace RegisterBody

variable {b : RegisterBody}

/-- What stands in a request is no longer than its body. -/
theorem short_of_ofJsonFront {text : String} (hsize : byteLength text ≤ Server.maxBody)
    (h : schema.ofJsonFront text = .ok b) : b.Short := by
  obtain ⟨hemail, -, hcode, -⟩ := Schema.within_ofJsonFront schema h
  have hmax := (length_le_byteLength text).1.trans hsize
  refine ⟨(hemail.resolve_left nofun).trans hmax, fun c hc => ?_⟩
  rcases hcode with hnone | hsome
  · cases (Option.some.inj hnone).trans hc
  · rw [hc] at hsome
    exact hsome.trans hmax

namespace Short

/-- Small letters take two characters at most, and a character four bytes. -/
theorem byteLength_email (hb : b.Short) {email : String}
    (h : Email.normalize? b.email = some email) : byteLength email < UInt64.size := by
  have hbytes := (length_le_byteLength email).2
  have hlength := Email.length_of_normalize? h
  have hmax := hb.email
  have hsize : 8 * Server.maxBody < UInt64.size := by decide
  omega

theorem byteLength_code (hb : b.Short) {c : String}
    (h : (b.referralCode.map trim).filter (!·.isEmpty) = some c) :
    byteLength c < UInt64.size := by
  obtain ⟨c', hc', rfl⟩ := Option.map_eq_some_iff.1 (Option.filter_eq_some_iff.1 h).1
  have hbytes := (length_le_byteLength (trim c')).2
  have hlength := length_trim_le c'
  have hmax := hb.code c' hc'
  have hsize : 8 * Server.maxBody < UInt64.size := by decide
  omega

end Short

end RegisterBody

/-! ## Handlers -/

namespace Server

variable {σ : Type} [Store σ]

section Steps

variable {σ α : Type} {f : ServiceM σ α} {s : Server σ}

theorem call_of_ok {a : α} (h : (f s.world).1 = .ok a) :
    call f s = (.ok a, { s with world := (f s.world).2 }) := by
  unfold call
  rcases hf : f s.world with ⟨_ | _, w⟩ <;> rw [hf] at h <;> cases h
  rfl

theorem call_of_error {e : ServiceError} (h : (f s.world).1 = .error e) :
    call f s = (.error (.service e), { s with world := (f s.world).2 }) := by
  unfold call
  rcases hf : f s.world with ⟨_ | _, w⟩ <;> rw [hf] at h <;> cases h
  rfl

end Steps

variable [LawfulStore σ] {settings : Settings} {s : Server σ}

/-- A handler made an entry, answers with success if that is what was asked for, and
counted it. -/
structure Handled {α : Type} (settings : Settings) (k? : Option Success) (s : Server σ)
    (out : Except RequestError α × Server σ) (entry : Entry) : Prop where
  made : Made settings s.world out.2.world entry
  named : entry.Named
  success : entry.success? = if out.1.isOk then k? else none
  metrics : out.2.metrics = s.metrics.credit entry.success?

namespace Handled

variable {α : Type} {k? : Option Success}

/-- A request that failed before anything was called. -/
theorem refused (hs : s.world.Good) (e : RequestError) :
    Handled settings k? s ((.error e, s) : Except RequestError α × Server σ) .nothing :=
  ⟨.nothing hs s.world.random, trivial, rfl, rfl⟩

/-- A call that failed, whatever it wrote into the books. -/
theorem failed {w : World σ} {entry : Entry} (hmade : Made settings s.world w entry)
    (hentry : entry.success? = none) (e : RequestError) :
    Handled settings k? s ((.error e, { s with world := w }) : Except RequestError α × Server σ)
      entry where
  made := hmade
  named := by cases entry <;> first | exact trivial | cases hentry
  success := hentry
  metrics := by rw [hentry]; rfl

/-- A call that nobody asks after. -/
theorem called {f : ServiceM σ α} {entry : Entry}
    (hmade : Made settings s.world (f s.world).2 entry) (hentry : entry.success? = none) :
    Handled settings none s (call f s) entry := by
  cases hf : (f s.world).1 with
  | error e =>
    rw [call_of_error hf]
    exact .failed hmade hentry _
  | ok a =>
    rw [call_of_ok hf]
    refine ⟨hmade, ?_, hentry, ?_⟩
    · cases entry <;> first | exact trivial | cases hentry
    · rw [hentry]
      rfl

/-- What is made of the result of a handler is none of the books' business. -/
theorem map {β : Type} {h : Handler σ α} {entry : Entry} (hh : Handled settings k? s (h s) entry)
    (g : α → β) : Handled settings k? s ((h >>= fun a => pure (g a)) s) entry := by
  rw [Computation.bind_apply]
  rcases hout : h s with ⟨_ | a, s'⟩ <;> rw [hout] at hh
  · exact ⟨hh.made, hh.named, hh.success, hh.metrics⟩
  · exact ⟨hh.made, hh.named, hh.success, hh.metrics⟩

end Handled

/-- A registration. -/
theorem register_handled (hs : s.world.Good) {b : RegisterBody} (hb : b.Short) :
    ∃ entry, Handled settings (some .registered) s (register settings b s) entry := by
  unfold register
  cases hnormal : Email.normalize? b.email with
  | none => exact ⟨.nothing, .refused hs _⟩
  | some email =>
    dsimp only
    rcases register_made hs (hb.byteLength_email hnormal) fun _ => hb.byteLength_code with
      ⟨r, entry, hentry, -, hok, hmade⟩ | ⟨⟨e, herror⟩, hmade⟩
    · rw [Computation.bind_of_ok (call_of_ok hok)]
      generalize (Onboarding.register settings email _ _ s.world).2 = w at hmade ⊢
      refine ⟨entry, hmade, ?_, ?_, ?_⟩
      · rcases hentry with ⟨rfl, rfl⟩ | rfl
        · exact Email.ne_empty_of_normalize? hnormal
        · trivial
      · rcases hentry with ⟨rfl, -⟩ | rfl <;> rfl
      · rcases hentry with ⟨rfl, -⟩ | rfl <;> rfl
    · rw [Computation.bind_of_error (call_of_error herror)]
      exact ⟨.nothing, .failed hmade rfl _⟩

/-- What is asked for an owner fails where the path names none. -/
theorem pathOwner_handled {α : Type} {k? : Option Success} (hs : s.world.Good) (text : String)
    {h : Owner → Handler σ α} (hh : ∀ o, ∃ entry, Handled settings k? s (h o s) entry) :
    ∃ entry, Handled settings k? s ((pathOwner text >>= h) s) entry := by
  unfold pathOwner
  cases Owner.parse text with
  | none =>
    rw [Computation.throw_bind]
    exact ⟨.nothing, .refused hs _⟩
  | some o => exact hh o

/-- A confirmation. -/
theorem confirm_handled (hs : s.world.Good) (owner code : String) :
    ∃ entry, Handled settings (some .confirmed) s (confirm settings owner code s) entry := by
  refine pathOwner_handled hs owner fun o => ?_
  obtain ⟨entry, hanswer, hmade⟩ := confirm_made settings hs o code
  refine ⟨entry, ?_⟩
  generalize hout : (Onboarding.confirm settings o code s.world).1 = out at hanswer
  cases hanswer with
  | done _ _ =>
    rw [Computation.bind_of_ok (call_of_ok hout)]
    exact ⟨hmade, trivial, rfl, rfl⟩
  | failed | refused _ _ | lost _ _ =>
    rw [Computation.bind_of_error (call_of_error hout)]
    exact .failed hmade rfl _

/-- A grant. -/
theorem testnetStake_handled (hs : s.world.Good) (b : StakeBody) :
    ∃ entry, Handled settings (some .granted) s (testnetStake settings b s) entry := by
  unfold testnetStake
  obtain ⟨entry, hanswer, hmade⟩ := grantTestnetStake_made hs ⟨trim b.address⟩
  refine ⟨entry, .map ?_ ownerReply⟩
  generalize hout : (grantTestnetStake settings ⟨trim b.address⟩ s.world).1 = out at hanswer
  cases hanswer with
  | done _ _ =>
    rw [call_of_ok hout]
    exact ⟨hmade, trivial, rfl, rfl⟩
  | failed | refused | lost =>
    rw [call_of_error hout]
    exact .failed hmade rfl _

/-- An inviter that is given. -/
theorem trackReferral_handled (hs : s.world.Good) (b : TrackBody) :
    ∃ entry, Handled settings none s (trackReferral b s) entry := by
  refine pathOwner_handled hs b.owner fun o => ?_
  rcases trackReferral_made hs with ⟨r, -, -, hmade⟩ | ⟨-, hmade⟩
  · exact ⟨.tracked r, .called hmade rfl⟩
  · exact ⟨.nothing, .called hmade rfl⟩

/-- An installation that is noted. -/
theorem referralInstalled_handled (hs : s.world.Good) (owner : String) :
    ∃ entry, Handled settings none s (referralInstalled owner s) entry := by
  refine pathOwner_handled hs owner fun o => ?_
  rcases markInstalled_made hs o with ⟨f, -, hmade⟩ | hmade
  · exact ⟨.installed f, .called hmade rfl⟩
  · exact ⟨.nothing, .called hmade rfl⟩

/-- A call that only reads. -/
theorem Handled.looked {α : Type} (hs : s.world.Good) {f : ServiceM σ α}
    (h : (f s.world).2 = s.world) : Handled settings none s (call f s) .nothing := by
  refine .called ?_ rfl
  rw [h]
  exact .nothing hs s.world.random

theorem referralStats_handled (hs : s.world.Good) (owner : String) :
    Handled settings none s (referralStats owner s) .nothing := by
  unfold referralStats
  cases Owner.parse owner with
  | none => exact .refused hs _
  | some o => exact .map (.looked hs (senderStats_snd o s.world)) _

theorem statistics_handled (hs : s.world.Good) :
    Handled settings none s (statistics s) .nothing :=
  .map (.looked hs (registrationStats_snd s.world)) _

/-! ## Requests -/

/-- A request was answered with status 200. -/
def succeeded : Except HttpFault Response → Bool
  | .ok r => r.status == 200
  | .error _ => false

/-- What keeps the status keeps the success. -/
theorem succeeded_map {f : Response → Response} (hf : ∀ r, (f r).status = r.status)
    (x : Except HttpFault Response) : succeeded (x.map f) = succeeded x := by
  cases x with
  | error e => rfl
  | ok r =>
    show ((f r).status == 200) = (r.status == 200)
    rw [hf]

/-- A request made an entry, is answered with success if that is what was asked for, and
was counted. -/
structure Served (settings : Settings) (k? : Option Success) (s : Server σ)
    (out : Except HttpFault Response × Server σ) (entry : Entry) : Prop where
  made : Made settings s.world out.2.world entry
  named : entry.Named
  success : entry.success? = if succeeded out.1 then k? else none
  confirmations : out.2.metrics.confirmations = s.metrics.confirmations + entry.count .confirmed
  registrations : out.2.metrics.registrations = s.metrics.registrations + entry.count .registered
  handled : ∀ k : Success,
    out.2.metrics.handled k.route 200 = s.metrics.handled k.route 200 + entry.count k

namespace Served

variable {k? : Option Success}

/-- A request that nobody looked into. -/
theorem untouched (hs : s.world.Good) {x : Except HttpFault Response}
    (hx : succeeded x = false ∨ k? = none) : Served settings k? s (x, s) .nothing where
  made := .nothing hs s.world.random
  named := trivial
  success := by rcases hx with hx | rfl <;> simp [Entry.success?, *]
  confirmations := rfl
  registrations := rfl
  handled _ := rfl

/-- Another response does as well, if it says the same of the success. -/
theorem reply {out : Except HttpFault Response × Server σ} {entry : Entry}
    (h : Served settings k? s out entry) {x : Except HttpFault Response}
    (hx : succeeded x = succeeded out.1) : Served settings k? s (x, out.2) entry :=
  ⟨h.made, h.named, hx ▸ h.success, h.confirmations, h.registrations, h.handled⟩

end Served

/-- The counters that a handler moves itself. -/
theorem Handled.counters {α : Type} {k? : Option Success}
    {out : Except RequestError α × Server σ} {entry : Entry}
    (hh : Handled settings k? s out entry) :
    out.2.metrics.confirmations = s.metrics.confirmations + entry.count .confirmed ∧
      out.2.metrics.registrations = s.metrics.registrations + entry.count .registered ∧
      out.2.metrics.requests = s.metrics.requests := by
  rw [hh.metrics]
  unfold Entry.count
  rcases entry.success? with _ | _ | _ | _ <;> exact ⟨rfl, rfl, rfl⟩

/-- What a handler comes to, once its answer is counted. -/
theorem answered_served {k? : Option Success} {name : String}
    (hname : ∀ k : Success, name = k.route ↔ k? = some k) {s' : Server σ} {entry : Entry}
    (hmade : Made settings s.world s'.world entry) (hnamed : entry.Named)
    (hcounters : s'.metrics.confirmations = s.metrics.confirmations + entry.count .confirmed ∧
      s'.metrics.registrations = s.metrics.registrations + entry.count .registered ∧
      s'.metrics.requests = s.metrics.requests)
    {r : Response} (hentry : entry.success? = if r.status = 200 then k? else none) :
    Served settings k? s (counted.answer name r s') entry where
  made := hmade
  named := hnamed
  success := by
    rw [hentry]
    unfold counted.answer succeeded
    simp
  confirmations := hcounters.1
  registrations := hcounters.2.1
  handled k := by
    unfold counted.answer
    rw [Metrics.handled_observe, Metrics.handled_congr hcounters.2.2, Entry.count, hentry]
    by_cases hstatus : r.status = 200 <;> simp [hstatus, hname k]

/-- **A handler's request is counted** under its route. -/
theorem counted_served {k? : Option Success} {name : String} {success : Json → Response}
    (hsuccess : ∀ j, (success j).status = 200)
    (hname : ∀ k : Success, name = k.route ↔ k? = some k) {h : Handler σ Json}
    (hh : ∃ entry, Handled settings k? s (h s) entry) :
    ∃ entry, Served settings k? s (counted name success h s) entry := by
  obtain ⟨entry, hh⟩ := hh
  refine ⟨entry, ?_⟩
  have hcounters := hh.counters
  obtain ⟨hmade, hnamed, hentry, -⟩ := hh
  unfold counted
  generalize h s = out at hmade hentry hcounters ⊢
  obtain ⟨x, s'⟩ := out
  cases x with
  | error e =>
    have herror : Served settings k? s (counted.answer name (.ofError e) s') entry := by
      refine answered_served hname hmade hnamed hcounters ?_
      exact hentry.trans (if_neg e.status_ne).symm
    -- a call that broke off is not counted, and was not a success
    have hbroken : Served settings k? s (.error .brokeOff, s') entry := by
      refine ⟨hmade, hnamed, hentry, hcounters.1, hcounters.2.1, fun k => ?_⟩
      have hnone : entry.count k = 0 := by
        rw [Entry.count, hentry]
        rfl
      rw [hnone, Metrics.handled_congr hcounters.2.2, Nat.add_zero]
    cases e with
    | service e =>
      dsimp only
      split
      · exact hbroken
      · exact herror
    | _ => exact herror
  | ok j =>
    refine answered_served hname hmade hnamed hcounters ?_
    exact hentry.trans (if_pos (hsuccess j)).symm

/-- **A handler that answers with JSON.** -/
theorem replying_served {k? : Option Success} {name : String}
    (hname : ∀ k : Success, name = k.route ↔ k? = some k) {h : Handler σ Json}
    (hh : ∃ entry, Handled settings k? s (h s) entry) :
    ∃ entry, Served settings k? s (replying name h s) entry :=
  counted_served (fun _ => rfl) hname hh

/-- **A handler that answers with nothing.** -/
theorem silent_served {k? : Option Success} {name : String}
    (hname : ∀ k : Success, name = k.route ↔ k? = some k) {h : Handler σ Unit}
    (hh : ∃ entry, Handled settings k? s (h s) entry) :
    ∃ entry, Served settings k? s (silent name h s) entry := by
  obtain ⟨entry, hh⟩ := hh
  refine counted_served (fun _ => rfl) hname ⟨entry, ?_⟩
  have hmap := hh.map fun _ => Json.null
  exact hmap

/-- What reads a body, once it can be read. -/
theorem withBody_served {α : Type} {k? : Option Success} (hs : s.world.Good) (q : HttpRequest)
    (schema : Schema α) {f : α → Outcome σ}
    (hf : ∀ a, byteLength q.body ≤ maxBody → schema.ofJsonFront q.body = .ok a →
      ∃ entry, Served settings k? s (f a s) entry) :
    ∃ entry, Served settings k? s (withBody q schema f s) entry := by
  unfold withBody refuse
  split
  · exact ⟨.nothing, .untouched hs (.inl rfl)⟩
  split
  · exact ⟨.nothing, .untouched hs (.inl rfl)⟩
  rename_i hsize
  rcases hread : schema.ofJsonFront q.body with (_ | _) | a
  · exact ⟨.nothing, .untouched hs (.inl rfl)⟩
  · exact ⟨.nothing, .untouched hs (.inl rfl)⟩
  · exact hf a (Nat.not_lt.1 hsize) hread

/-- What takes a part of the path, once it is a text. -/
theorem withPart_served {k? : Option Success} (hs : s.world.Good) (part : List Char)
    {f : String → Outcome σ} (hf : ∀ text, ∃ entry, Served settings k? s (f text s) entry) :
    ∃ entry, Served settings k? s (withPart part f s) entry := by
  unfold withPart
  cases Target.segment? part with
  | none => exact ⟨.nothing, .untouched hs (.inl rfl)⟩
  | some text => exact hf text

/-- **What a route answers.** -/
theorem answer_served (settings : Settings) (hs : s.world.Good) (q : HttpRequest) (route : Route) :
    ∃ entry, Served settings route.success? s (answer settings q route s) entry := by
  cases route with
  | register =>
    refine withBody_served hs q _ fun b hsize hbody => ?_
    refine replying_served (by decide) (register_handled hs ?_)
    exact RegisterBody.short_of_ofJsonFront hsize hbody
  | confirm owner code =>
    show ∃ entry, Served settings (some .confirmed) s _ entry
    refine withPart_served hs owner fun owner => withPart_served hs code fun code => ?_
    exact silent_served (by decide) (confirm_handled hs owner code)
  | testnetStake =>
    refine withBody_served hs q _ fun b _ _ => ?_
    exact replying_served (by decide) (testnetStake_handled hs b)
  | trackReferral =>
    refine withBody_served hs q _ fun b _ _ => ?_
    exact silent_served (by decide) (trackReferral_handled hs b)
  | referralInstalled owner =>
    show ∃ entry, Served settings none s _ entry
    refine withPart_served hs owner fun owner => ?_
    exact silent_served (by decide) (referralInstalled_handled hs owner)
  | referralStats owner =>
    show ∃ entry, Served settings none s _ entry
    refine withPart_served hs owner fun owner => ?_
    exact replying_served (by decide) ⟨_, referralStats_handled hs owner⟩
  | registrationStats =>
    exact replying_served (by decide) ⟨_, statistics_handled hs⟩
  | health | metrics => exact ⟨.nothing, .untouched hs (.inr rfl)⟩

/-- **What becomes of a request is decided by the request.** It is refused as it stands, or
it is answered by its route, perhaps without the body. -/
theorem handle_cases (settings : Settings) (q : HttpRequest) :
    (∃ x, succeeded x = false ∧
      ∀ {σ : Type} [Store σ] (s : Server σ), handle settings q s = (x, s)) ∨
    ∃ route f, q.Reaches route ∧ (∀ r : Response, (f r).status = r.status) ∧
      ∀ {σ : Type} [Store σ] (s : Server σ), handle settings q s =
        ((answer settings q route s).1.map f, (answer settings q route s).2) := by
  unfold handle
  cases hpath : Target.path? q.target with
  | none => exact .inl ⟨_, rfl, fun _ => rfl⟩
  | some path =>
  by_cases hform : isRequest q = true
  swap
  · exact .inl ⟨.error .malformed, rfl, fun s => by simp [hform]⟩
  cases hroute : Route.ofPath? path with
  | none => exact .inl ⟨.ok { status := 404 }, rfl, fun s => by simp [hform, hroute, refuse]⟩
  | some route =>
  have hrouted : q.route? = some route := by
    rw [HttpRequest.route?, hpath, Option.bind_some, hroute]
  have hrefused : succeeded (.ok { status := 405, allow := some route.method.allow }) = false := rfl
  cases hmethod : route.method with
  | get =>
    have hreaches : q.Reaches route := ⟨hform, hrouted, by rw [hmethod]; exact nofun⟩
    by_cases hget : q.method = "GET"
    · exact .inr ⟨route, id, hreaches, fun _ => rfl,
        fun s => by simp [hform, hroute, hmethod, hget]⟩
    by_cases hhead : q.method = "HEAD"
    · exact .inr ⟨route, Response.withoutBody, hreaches, fun _ => rfl,
        fun s => by simp [hform, hroute, hmethod, hhead]⟩
    · exact .inl ⟨_, hrefused, fun s => by simp [hform, hroute, hmethod, hget, hhead]⟩
  | post =>
    by_cases hpost : q.method = "POST"
    · exact .inr ⟨route, id, ⟨hform, hrouted, fun _ => hpost⟩, fun _ => rfl,
        fun s => by simp [hform, hroute, hmethod, hpost]⟩
    · exact .inl ⟨_, hrefused, fun s => by simp [hform, hroute, hmethod, hpost]⟩

/-- **What a request does.** -/
theorem handle_served (settings : Settings) (hs : s.world.Good) (q : HttpRequest) :
    ∃ entry, Served settings (q.route?.bind Route.success?) s (handle settings q s) entry := by
  rcases handle_cases settings q with ⟨x, hx, hrefused⟩ | ⟨route, f, hreaches, hf, hanswered⟩
  · rw [hrefused]
    exact ⟨.nothing, .untouched hs (.inl hx)⟩
  · rw [hanswered, hreaches.routed]
    obtain ⟨entry, hserved⟩ := answer_served settings hs q route
    exact ⟨entry, hserved.reply (succeeded_map hf _)⟩

end Server

end Onboarding
