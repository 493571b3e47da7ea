import Onboarding.Proofs.Http.Conservation
import Onboarding.Proofs.Service.Frame
/-!
# Refusals — an email whose domain was put on the denylist

Whatever a server is asked and whatever fails, an entry that its store accepted stays on the
denylist (`Server.Listed.denies`). Whether it then stands in the way of an email that is
spelt with the same domain is a matter of spelling alone. The entry is listed with the
letters of ASCII made small, the email is asked for with all letters made small, and the
store of tables leaves an `@` in the entry as it is. `Server.refuses_iff` says that these
are the only ways for such an email to get past.
-/

namespace Onboarding

open StoreView

open Onboarding.Computation (Preserves)

open ServiceM (preserves_read)

/-! ## Requests -/

deriving instance DecidableEq for RegisterBody

/-- A request with a body that the server reads on a route that takes one. -/
structure HttpRequest.Posts {β : Type} (q : HttpRequest) (route : Route) (schema : Schema β)
    (b : β) : Prop where
  formed : Server.isRequest q = true
  routed : q.route? = some route
  taken : route.method = .post
  posted : q.method = "POST"
  json : q.contentType.any MediaType.isJson = true
  sized : byteLength q.body ≤ Server.maxBody
  body : schema.ofJsonFront q.body = .ok b

/-- A request to register that the server reads as one. -/
abbrev HttpRequest.Registers (q : HttpRequest) (b : RegisterBody) : Prop :=
  q.Posts .register RegisterBody.schema b

namespace Server

section Frames

variable {σ α : Type} {I : σ → Prop}

/-! ## Frames -/

/-- A handler that ran a call leaves what the call leaves. -/
theorem preserves_call {f : ServiceM σ α} (h : Preserves (World.Holds I) f) :
    Preserves (fun s : Server σ => s.world.Holds I) (call f) := by
  refine .of_snd fun s hs => ?_
  have hworld := h.snd hs
  unfold call
  split <;> rename_i hout <;> rwa [hout] at hworld

theorem preserves_count (f : Metrics → Metrics) :
    Preserves (fun s : Server σ => s.world.Holds I) (count f) :=
  .of_snd fun _ hs => hs

theorem preserves_pathOwner (text : String) :
    Preserves (fun s : Server σ => s.world.Holds I) (pathOwner text : Handler σ Owner) := by
  unfold pathOwner
  split
  · exact .pure _
  · exact .throw trivial

/-- What is answered and counted leaves what its handler leaves. -/
theorem holds_counted {name : String} {success : Json → Response} {h : Handler σ Json}
    (hh : Preserves (fun s : Server σ => s.world.Holds I) h) {s : Server σ}
    (hs : s.world.Holds I) : (counted name success h s).2.world.Holds I := by
  have hout := hh.snd hs
  unfold counted
  split <;> rename_i hcase <;> rw [hcase] at hout
  · split
    · exact hout
    · exact hout
  · exact hout
  · exact hout

theorem holds_replying {name : String} {h : Handler σ Json}
    (hh : Preserves (fun s : Server σ => s.world.Holds I) h) {s : Server σ}
    (hs : s.world.Holds I) : (replying name h s).2.world.Holds I :=
  holds_counted hh hs

theorem holds_silent {name : String} {h : Handler σ Unit}
    (hh : Preserves (fun s : Server σ => s.world.Holds I) h) {s : Server σ}
    (hs : s.world.Holds I) : (silent name h s).2.world.Holds I :=
  holds_counted (.bind hh fun _ => .pure Json.null) hs

theorem holds_withBody {β : Type} {q : HttpRequest} {schema : Schema β} {f : β → Outcome σ}
    {s : Server σ} (hs : s.world.Holds I) (hf : ∀ b, (f b s).2.world.Holds I) :
    (withBody q schema f s).2.world.Holds I := by
  unfold withBody
  split
  · exact hs
  split
  · exact hs
  rcases schema.ofJsonFront q.body with (_ | _) | b
  · exact hs
  · exact hs
  · exact hf b

theorem holds_withPart {part : List Char} {f : String → Outcome σ} {s : Server σ}
    (hs : s.world.Holds I) (hf : ∀ text, (f text s).2.world.Holds I) :
    (withPart part f s).2.world.Holds I := by
  unfold withPart
  cases Target.segment? part with
  | none => exact hs
  | some text => exact hf text

end Frames

section Requests

variable {σ : Type} [Store σ] {I : σ → Prop} {settings : Settings} {s : Server σ}

theorem holds_answer (h : Store.RecordStable I) (settings : Settings) (q : HttpRequest)
    (route : Route) (hs : s.world.Holds I) : (answer settings q route s).2.world.Holds I := by
  unfold answer
  cases route with
  | register =>
    refine holds_withBody hs fun b => holds_replying ?_ hs
    unfold register
    split
    · exact .throw trivial
    · exact .bind (preserves_call (preserves_register h _ _ _ _)) fun _ =>
        .bind (preserves_count _) fun _ => .pure _
  | confirm owner code =>
    refine holds_withPart hs fun owner => holds_withPart hs fun code => holds_silent ?_ hs
    exact .bind (preserves_pathOwner _) fun _ =>
      .bind (preserves_call (preserves_confirm h _ _ _)) fun _ => preserves_count _
  | testnetStake =>
    refine holds_withBody hs fun b => holds_replying ?_ hs
    exact .bind (preserves_call (preserves_grantTestnetStake h _ _)) fun _ => .pure _
  | trackReferral =>
    refine holds_withBody hs fun b => holds_silent ?_ hs
    exact .bind (preserves_pathOwner _) fun _ => preserves_call (preserves_trackReferral h _ _)
  | referralInstalled owner =>
    refine holds_withPart hs fun owner => holds_silent ?_ hs
    exact .bind (preserves_pathOwner _) fun _ => preserves_call (preserves_markInstalled h _)
  | referralStats owner =>
    refine holds_withPart hs fun owner => holds_replying ?_ hs
    unfold referralStats
    split
    · exact .throw trivial
    · exact .bind (preserves_call (preserves_read _)) fun _ => .pure _
  | registrationStats =>
    refine holds_replying (.bind (preserves_call ?_) fun _ => .pure _) hs
    exact .bind (preserves_read _) fun _ => .bind (preserves_read _) fun _ => .pure _
  | health | metrics => exact hs

/-- **What no write of a record takes away no request does.** -/
theorem holds_handle (h : Store.RecordStable I) (settings : Settings) (q : HttpRequest)
    (hs : s.world.Holds I) : (handle settings q s).2.world.Holds I := by
  rcases handle_cases settings q with ⟨x, -, hrefused⟩ | ⟨route, f, -, -, hanswered⟩
  · rw [hrefused]
    exact hs
  · rw [hanswered]
    exact holds_answer h settings q route hs

end Requests

/-! ## Answers -/

section Bodies

variable {σ β : Type} {q : HttpRequest} {route : Route} {schema : Schema β} {b : β}

/-- The body is handed to whoever asked for it. -/
theorem withBody_of_posts (h : q.Posts route schema b) (f : β → Outcome σ) :
    withBody q schema f = f b := by
  have hsized : ¬ maxBody < byteLength q.body := Nat.not_lt.2 h.sized
  unfold withBody
  simp only [h.json, h.body, hsized, Bool.not_true, Bool.false_eq_true, if_false]

/-- The request is answered on its route. -/
theorem handle_of_posts [Store σ] (h : q.Posts route schema b) (settings : Settings)
    (s : Server σ) : handle settings q s = answer settings q route s := by
  obtain ⟨path, hpath, hroute⟩ := Option.bind_eq_some_iff.1 h.routed
  unfold handle
  simp only [hpath, h.formed, hroute, h.posted, h.taken, Bool.not_true, Bool.false_eq_true,
    if_false]

end Bodies

theorem replying_of_ok {σ : Type} {name : String} {h : Handler σ Json} {s : Server σ} {j : Json}
    (hj : (h s).1 = .ok j) : (replying name h s).1 = .ok (.json 200 j) := by
  unfold replying counted
  rcases hout : h s with ⟨_ | _, s'⟩ <;> rw [hout] at hj <;> cases hj
  rfl

theorem replying_of_error {σ : Type} {name : String} {h : Handler σ Json} {s : Server σ}
    {e : ServiceError} (he : (h s).1 = .error (.service e)) :
    (replying name h s).1 =
      if e.brokeOff then .error .brokeOff else .ok (.ofError (.service e)) := by
  unfold replying counted
  rcases hout : h s with ⟨_ | _, s'⟩ <;> rw [hout] at he <;> cases he
  dsimp only
  split <;> rfl

/-- Counting a request changes nothing but the counters. -/
theorem world_counted {σ : Type} (name : String) (success : Json → Response) (h : Handler σ Json)
    (s : Server σ) : (counted name success h s).2.world = (h s).2.world := by
  unfold counted
  rcases h s with ⟨(_ | _), s'⟩
  · dsimp only
    split
    · rename_i hout
      cases hout
      split <;> rfl
    · rename_i hout
      cases hout
      rfl
    · rename_i hout
      cases hout
  · rfl

/-- Nothing but the domain of an email is forbidden. -/
theorem status_eq_forbidden {e : ServiceError} (h : (RequestError.service e).status = 403) :
    e = .fraudDomain := by
  cases e <;> first | rfl | cases h

section Requests

variable {σ : Type} [Store σ] {settings : Settings} {s : Server σ} {q : HttpRequest}
  {b : RegisterBody} {email : String}

/-- A request is answered with a status, and nothing is stored, mailed or paid. -/
structure Rejects (settings : Settings) (s : Server σ) (q : HttpRequest) (status : Nat) :
    Prop where
  answer : ∃ r, (handle settings q s).1 = .ok r ∧ r.status = status
  world_eq : (handle settings q s).2.world = s.world

/-- A request to register is handed to the handler of its route. -/
theorem handle_of_registers (h : q.Registers b) (settings : Settings) (s : Server σ) :
    handle settings q s = replying "register" (register settings b) s := by
  rw [handle_of_posts h]
  exact congrFun (withBody_of_posts h _) s

/-- What the service answers to a request to register. -/
theorem register_cases (settings : Settings) (s : Server σ)
    (hnormal : Email.normalize? b.email = some email) :
    (∃ j, (register settings b s).1 = .ok j) ∨
      ∃ e, (register settings b s).1 = .error (.service e) ∧
        (Onboarding.register settings email ⟨trim b.address⟩
          ((b.referralCode.map trim).filter (!·.isEmpty)) s.world).1 = .error e := by
  unfold register
  rw [hnormal]
  dsimp only
  generalize (b.referralCode.map trim).filter (!·.isEmpty) = code?
  cases hout : (Onboarding.register settings email ⟨trim b.address⟩ code? s.world).1 with
  | error e =>
    rw [Computation.bind_of_error (call_of_error hout)]
    exact .inr ⟨e, rfl, rfl⟩
  | ok o =>
    rw [Computation.bind_of_ok (call_of_ok hout)]
    exact .inl ⟨_, rfl⟩

/-- **A request to register is forbidden** if and only if the denylist refuses its email. -/
theorem rejects_iff (h : q.Registers b) (hnormal : Email.normalize? b.email = some email)
    (haddress : Bech32.validate (trim b.address) settings.addressPrefix = .ok ()) :
    s.Rejects settings q 403 ↔ Store.isFraudEmail s.world.store email = .ok true := by
  have hhandle := handle_of_registers h settings s
  constructor
  · rintro ⟨⟨r, hanswer, hstatus⟩, -⟩
    rw [hhandle] at hanswer
    rcases register_cases settings s hnormal with ⟨j, hj⟩ | ⟨e, he, hregister⟩
    · rw [replying_of_ok hj] at hanswer
      cases hanswer
      cases hstatus
    · rw [replying_of_error he] at hanswer
      split at hanswer
      · cases hanswer
      · cases hanswer
        rw [status_eq_forbidden hstatus] at hregister
        exact isFraudEmail_of_register haddress hregister
  · intro hfraud
    have hregister : register settings b s = (.error (.service .fraudDomain), s) := by
      unfold register
      rw [hnormal]
      have hvalid : Bech32.validate (WalletAddress.mk (trim b.address)).text
        settings.addressPrefix = .ok () := haddress
      refine Computation.bind_of_error ?_
      unfold call
      rw [register_of_isFraudEmail _ hvalid hfraud]
    unfold replying counted at hhandle
    rw [hregister] at hhandle
    exact ⟨⟨_, congrArg Prod.fst hhandle, rfl⟩, congrArg (·.2.world) hhandle⟩

end Requests

end Server

/-! ## What may happen -/

/-- What may happen to a server, or to the store behind its back. -/
inductive Occurrence where
  | request (q : HttpRequest)
  /-- A call on the service, a payout, or other surroundings. -/
  | act (a : Act)
  | store (c : StoreCall)

namespace Server

/-- The server afterwards. -/
def after {σ : Type} [Store σ] [StoreView σ] (settings : Settings) (s : Server σ) :
    Occurrence → Server σ
  | .request q => (handle settings q s).2
  | .act a => { s with world := s.world.act settings a }
  | .store c => { s with world := { s.world with store := (c.run s.world.store).2 } }

variable {σ : Type} [Store σ] [LawfulStore σ] {settings : Settings} {domain : String}

/-- A server that something led to since it was started. -/
inductive Reached (settings : Settings) : Server σ → Prop
  | start (clock : Timestamp) : Reached settings (start clock)
  | after {s : Server σ} (o : Occurrence) : Reached settings s →
    Reached settings (s.after settings o)

/-- A server whose store accepted an entry for its denylist, now or at some time before. -/
inductive Listed (settings : Settings) (domain : String) : Server σ → Prop
  | put {s : Server σ} : Reached settings s →
    (Store.putFraudDomain domain s.world.store).1 = .ok () →
    Listed settings domain (s.after settings (.store (.putFraudDomain domain)))
  | after {s : Server σ} (o : Occurrence) : Listed settings domain s →
    Listed settings domain (s.after settings o)

/-- **What no write takes away stays**, whatever happens. -/
theorem holds_after {I : σ → Prop} (h : Store.Stable I) (hfail : ∀ ops s, I s → I (failOn ops s))
    (settings : Settings) (o : Occurrence) {s : Server σ} (hs : s.world.Holds I) :
    (s.after settings o).world.Holds I := by
  cases o with
  | request q => exact holds_handle h.toRecordStable settings q hs
  | act a => exact World.holds_act h.toRecordStable hfail settings a hs
  | store c => exact ⟨StoreCall.run_of_stable h c hs.store, hs.quiet⟩

theorem Reached.quiet {s : Server σ} (h : s.Reached settings) : s.world.interruption = none := by
  have htrue : s.world.Holds fun _ => True := by
    induction h with
    | start clock => exact ⟨trivial, rfl⟩
    | after o _ ih => exact holds_after .true (fun _ _ => id) settings o ih
  exact htrue.quiet

variable [ListingStore σ]

open DenyingStore (Denies)

open ListingStore (listedAs)

/-- **An entry stays on the denylist**, whatever happens. -/
theorem Listed.denies {s : Server σ} (h : s.Listed settings domain) :
    s.world.Holds fun s => Denies s (listedAs (σ := σ) domain) := by
  induction h with
  | @put s hs hput =>
    obtain ⟨s', hs'⟩ : ∃ s', Store.putFraudDomain domain s.world.store = (.ok (), s') :=
      ⟨_, Prod.ext hput rfl⟩
    refine ⟨?_, hs.quiet⟩
    show Denies ((StoreCall.putFraudDomain domain).run s.world.store).2 _
    rw [StoreCall.run_putFraudDomain hs']
    exact (ListingStore.denies_put _ hs').2 (.inr rfl)
  | after o _ ih =>
    exact holds_after (ListingStore.stable_denies _)
      (fun ops s => (ListingStore.denies_failOn ops s _).2) settings o ih

/-- An email that is refused by every server on whose denylist an entry was put ends in the
key of the entry, and unless it is that key its domain has more dots. -/
theorem suffix_of_rejects {q : HttpRequest} {b : RegisterBody} {email : String}
    (hq : q.Registers b) (hnormal : Email.normalize? b.email = some email)
    (haddress : Bech32.validate (trim b.address) settings.addressPrefix = .ok ())
    (hput : (Store.putFraudDomain domain (Store.empty : σ)).1 = .ok ())
    (h : ∀ s : Server σ, s.Listed settings domain → .isFraudDomain ∉ failing s.world.store →
      s.Rejects settings q 403) :
    ∃ asked, emailDomain? email = some asked ∧
      (listedAs (σ := σ) domain).toList <:+ asked.toList ∧
      (listedAs (σ := σ) domain = asked ∨
        (listedAs (σ := σ) domain).toList.count '.' < asked.toList.count '.') := by
  -- the entry is alone on the list of a server that was just started
  let s : Server σ := (start ⟨0⟩).after settings (.store (.putFraudDomain domain))
  have hlisted : s.Listed settings domain := .put (.start _) hput
  obtain ⟨s', hs'⟩ : ∃ s', Store.putFraudDomain domain (Store.empty : σ) = (.ok (), s') :=
    ⟨_, Prod.ext hput rfl⟩
  have hstore : s.world.store = s' := StoreCall.run_putFraudDomain hs'
  have hfailing := ListingStore.failing_put (Store.empty : σ) domain
  rw [hs', LawfulStore.failing_empty] at hfailing
  have hquiet : .isFraudDomain ∉ failing s.world.store := by
    rw [hstore, hfailing]
    exact List.not_mem_nil
  have honly (k : String) (hk : Denies s.world.store k) : k = listedAs (σ := σ) domain := by
    rw [hstore, ListingStore.denies_put k hs'] at hk
    exact hk.resolve_left (DenyingStore.not_denies_empty k)
  refine suffix_of_isFraudEmail hquiet honly (Email.isBlank_of_normalize? hnormal) ?_
  exact (rejects_iff hq hnormal haddress).1 (h s hlisted hquiet)

/-- Every server that once put the domain on its denylist forbids the request, as long as the
denylist can be asked. -/
def Refuses (kind : StoreKind) (settings : Settings) (domain : String) (q : HttpRequest) : Prop :=
  ∀ s : Server kind.State, s.Listed settings domain → .isFraudDomain ∉ failing s.world.store →
    s.Rejects settings q 403

/-- **A domain on the denylist is refused** in every later state if and only if nothing
gets lost between the spellings: the email is asked for with all its letters made small, the
entry is listed with those of ASCII made small, and on a store of tables an `@` in the entry
is not cut off. -/
theorem refuses_iff (kind : StoreKind) (settings : Settings) {q : HttpRequest} {b : RegisterBody}
    {user domain : String} (hq : q.Registers b) (hemail : b.email = user ++ "@" ++ domain)
    (hnormal : (Email.normalize? b.email).isSome)
    (haddress : Bech32.validate (trim b.address) settings.addressPrefix = .ok ())
    (hput : ∃ s : kind.State, (Store.putFraudDomain domain s).1 = .ok ()) :
    Refuses kind settings domain q ↔
      (kind = .indexed → '@' ∉ domain.toList) ∧
        lowercase (String.ofList (host domain)) = asciiLower (String.ofList (host domain)) := by
  obtain ⟨email, hemail'⟩ := Option.isSome_iff_exists.1 hnormal
  have hblank := Email.isBlank_of_normalize? hemail'
  have hasked := Email.emailDomain?_of_normalize? (hemail ▸ hemail')
  obtain ⟨s₀, hput⟩ := hput
  have hkey := ListingStore.listedAs_ne hput
  have hdots : (asciiLower (String.ofList (host domain))).toList.count '.' =
      (lowercase (String.ofList (host domain))).toList.count '.' := by
    rw [asciiLower, lowercase, String.toList_ofList, String.toList_ofList, String.toList_ofList,
      count_dot_map_toLower, Lowercase.count_lowerFrom Lowercase.isMark_dot]
  constructor
  · intro h
    have hput := ListingStore.accepts (t := (Store.empty : kind.State))
      (by rw [LawfulStore.failing_empty]; exact List.not_mem_nil) hput
    obtain ⟨asked, hasked', hsuffix, hkey⟩ := suffix_of_rejects hq hemail' haddress hput h
    rw [hasked] at hasked'
    split at hasked'
    · cases hasked'
    obtain rfl := Option.some.inj hasked'
    have hat : kind = .indexed → '@' ∉ domain.toList := by
      refine at_not_mem_of_listedAs fun hmem => at_not_mem_host domain ?_
      have hmem := hsuffix.subset hmem
      rw [lowercase, String.toList_ofList, String.toList_ofList] at hmem
      exact (Lowercase.mem_of_mem_lowerFrom hmem (by decide)).1
    rw [listedAs_eq_host hat, hdots] at hkey
    exact ⟨hat, (hkey.resolve_right (lt_irrefl _)).symm⟩
  · rintro ⟨hat, hspelt⟩ s hs hquiet
    rw [rejects_iff hq hemail' haddress]
    rw [listedAs_eq_host hat, ← hspelt] at hkey
    have hhost : host domain ≠ [] := by
      intro hnil
      rw [hnil] at hkey
      exact hkey rfl
    rw [if_neg hhost, hspelt, ← listedAs_eq_host hat] at hasked
    exact isFraudEmail_of_denies hquiet hblank hasked hs.denies.store

/-- A request to register an email for a wallet. -/
def registering (email : String) : HttpRequest where
  method := "POST"
  target := "/v1/register"
  contentType := some "application/json"
  body := "\x7b\"email\":\"" ++ email ++
    "\",\"address\":\"decentr1vg085ra5hw8mx5rrheqf8fruks0xv4urqkuqga\"\x7d"

/-- What it says. -/
def registeringBody (email : String) : RegisterBody where
  email := email
  address := "decentr1vg085ra5hw8mx5rrheqf8fruks0xv4urqkuqga"
  referralCode := none

/-- A domain in letters of ASCII is refused, small or capital. -/
theorem refuses_iff_spam :
    (registering "l@Spam.Example").Registers (registeringBody "l@Spam.Example") ∧
      (Email.normalize? (registeringBody "l@Spam.Example").email).isSome ∧
      Bech32.validate (trim (registeringBody "l@Spam.Example").address)
        ({ } : Settings).addressPrefix = .ok () ∧
      (∃ s : StoreKind.indexed.State, (Store.putFraudDomain "Spam.Example" s).1 = .ok ()) ∧
      Refuses .indexed { } "Spam.Example" (registering "l@Spam.Example") := by
  have hregisters : (registering "l@Spam.Example").Registers (registeringBody "l@Spam.Example") :=
    ⟨by decide +kernel, by decide +kernel, rfl, rfl, by decide +kernel, by decide +kernel,
      by decide +kernel⟩
  have hemail : (registeringBody "l@Spam.Example").email = "l" ++ "@" ++ "Spam.Example" := by
    decide
  have hnormal : (Email.normalize? (registeringBody "l@Spam.Example").email).isSome := by
    decide +kernel
  have haddress : Bech32.validate (trim (registeringBody "l@Spam.Example").address)
      ({ } : Settings).addressPrefix = .ok () := by
    decide +kernel
  have hput : ∃ s : StoreKind.indexed.State, (Store.putFraudDomain "Spam.Example" s).1 = .ok () :=
    ⟨Store.empty, by decide +kernel⟩
  refine ⟨hregisters, hnormal, haddress, hput, ?_⟩
  refine (refuses_iff .indexed { } hregisters hemail hnormal haddress hput).2 ⟨fun _ => ?_, ?_⟩
  · decide
  · decide +kernel

/-- A capital letter outside ASCII lets the email pass. -/
theorem not_refuses_umlaut :
    (registering "l@SPÄM.example").Registers (registeringBody "l@SPÄM.example") ∧
      (Email.normalize? (registeringBody "l@SPÄM.example").email).isSome ∧
      Bech32.validate (trim (registeringBody "l@SPÄM.example").address)
        ({ } : Settings).addressPrefix = .ok () ∧
      (∃ s : StoreKind.table.State, (Store.putFraudDomain "SPÄM.example" s).1 = .ok ()) ∧
      ¬ Refuses .table { } "SPÄM.example" (registering "l@SPÄM.example") := by
  have hregisters : (registering "l@SPÄM.example").Registers (registeringBody "l@SPÄM.example") :=
    ⟨by decide +kernel, by decide +kernel, rfl, rfl, by decide +kernel, by decide +kernel,
      by decide +kernel⟩
  have hnormal : Email.normalize? (registeringBody "l@SPÄM.example").email =
      some "l@späm.example" := by
    decide +kernel
  have haddress : Bech32.validate (trim (registeringBody "l@SPÄM.example").address)
      ({ } : Settings).addressPrefix = .ok () := by
    decide +kernel
  have hput : (Store.putFraudDomain "SPÄM.example" (Store.empty : StoreKind.table.State)).1 =
      .ok () := by
    decide +kernel
  refine ⟨hregisters, Option.isSome_iff_exists.2 ⟨_, hnormal⟩, haddress, ⟨_, hput⟩, fun h => ?_⟩
  have hrejects := h _ (.put (.start ⟨0⟩) hput) (by decide +kernel)
  rw [rejects_iff hregisters hnormal haddress] at hrejects
  revert hrejects
  decide +kernel

end Server

end Onboarding
