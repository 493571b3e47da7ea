import Onboarding.Proofs.Http.Conservation
import Onboarding.Proofs.Service.Lockstep.Calls
/-!
# Refinement — a server does not show what kind of store it has

The same acts are done to two servers whose stores are of different kinds and have the
same entries on their denylists. `Server.Alike` is what the two have in common; a handler
and a request keep it and answer the same (`handle_matched`). So whatever is seen of one
server through a run is seen of the other (`trace_seeded_eq`), as long as nobody gives an
inviter's code that is empty.
-/

namespace Onboarding

open StoreView

/-- A request that gives an inviter's code gives one that is not empty. -/
def HttpRequest.GivesCode (q : HttpRequest) : Prop :=
  q.route? = some .trackReferral → ∀ b, TrackBody.schema.ofJsonFront q.body = .ok b →
    trim b.referralCode ≠ ""

instance (q : HttpRequest) : Decidable q.GivesCode :=
  have : Decidable (∀ b, TrackBody.schema.ofJsonFront q.body = .ok b →
      trim b.referralCode ≠ "") :=
    match TrackBody.schema.ofJsonFront q.body with
    | .error _ => isTrue nofun
    | .ok b => decidable_of_iff (trim b.referralCode ≠ "")
        ⟨fun h _ hb => Except.ok.inj hb ▸ h, fun h => h b rfl⟩
  inferInstanceAs (Decidable (_ → _))

/-- The act is not a request that gives an empty code. -/
def ServerAct.GivesCode : ServerAct → Prop
  | request q => q.GivesCode
  | _ => True

instance (a : ServerAct) : Decidable a.GivesCode :=
  match a with
  | .request q => inferInstanceAs (Decidable q.GivesCode)
  | .background _ | .surround _ => isTrue trivial

namespace Server

section Matching

variable {σ τ : Type} [Store σ] [Store τ] [LawfulStore σ] [LawfulStore τ]

/-- Two servers that differ in nothing but the kind of their store. -/
structure Alike (s : Server σ) (t : Server τ) : Prop where
  world : s.world.Alike t.world
  metrics_eq : s.metrics = t.metrics

variable {s : Server σ} {t : Server τ} {α β : Type}

/-! ## Handlers -/

theorem call_matched (h : s.Alike t) {f : ServiceM σ α} {f' : ServiceM τ α}
    (hf : Matched World.Alike World.Alike (f s.world) (f' t.world)) :
    Matched Alike Alike (call f s) (call f' t) := by
  unfold call
  generalize f s.world = out at hf ⊢
  generalize f' t.world = out' at hf ⊢
  cases hf with
  | ok hworld => exact .ok ⟨hworld, h.metrics_eq⟩
  | error hworld => exact .error ⟨hworld, h.metrics_eq⟩

theorem count_matched (h : s.Alike t) (f : Metrics → Metrics) :
    Matched Alike Alike (count f s) (count f t) :=
  .ok ⟨h.world, congrArg f h.metrics_eq⟩

/-- An answer is made of the same result. -/
theorem map_matched {f : Handler σ α} {f' : Handler τ α}
    (hf : Matched Alike Alike (f s) (f' t)) (g : α → β) :
    Matched Alike Alike ((f >>= fun a => pure (g a)) s) ((f' >>= fun a => pure (g a)) t) :=
  hf.bind fun _ _ _ _ _ h' => .ok h'

/-- An owner in a path is a hash. -/
theorem pathOwner_matched (h : s.Alike t) (text : String) {k : Owner → Handler σ α}
    {k' : Owner → Handler τ α}
    (hrest : ∀ o : Owner, o.IsHash → Matched Alike Alike (k o s) (k' o t)) :
    Matched Alike Alike ((pathOwner text >>= k) s) ((pathOwner text >>= k') t) := by
  unfold pathOwner
  cases howner : Owner.parse text with
  | none => exact .error h
  | some o => exact hrest o (Owner.isHash_of_parse howner)

theorem register_matched (h : s.Alike t) (settings : Settings) {b : RegisterBody} (hb : b.Short) :
    Matched Alike Alike (register settings b s) (register settings b t) := by
  unfold register
  cases hnormal : Email.normalize? b.email with
  | none => exact .error h
  | some email =>
    -- what is left of a code is not empty
    have hcodes : ∀ c, (b.referralCode.map trim).filter (!·.isEmpty) = some c → c ≠ "" := by
      rintro c hc rfl
      exact absurd (Option.filter_eq_some_iff.1 hc).2 (by decide)
    have hregister := Onboarding.register_matched h.world settings ⟨trim b.address⟩
      (Email.isBlank_of_normalize? hnormal) (hb.byteLength_email hnormal)
      (fun _ => hb.byteLength_code) hcodes
    refine (call_matched h hregister).bind fun _ _ _ _ _ h' => ?_
    exact map_matched (count_matched h' _) _

theorem confirm_matched (h : s.Alike t) (settings : Settings) (owner code : String) :
    Matched Alike Alike (confirm settings owner code s) (confirm settings owner code t) := by
  refine pathOwner_matched h owner fun o ho => ?_
  have hconfirm := Onboarding.confirm_matched h.world settings ho code
  exact (call_matched h hconfirm).bind fun _ _ _ _ _ h' => count_matched h' _

theorem testnetStake_matched (h : s.Alike t) (settings : Settings) (b : StakeBody) :
    Matched Alike Alike (testnetStake settings b s) (testnetStake settings b t) :=
  map_matched (call_matched h (grantTestnetStake_matched h.world settings _)) _

theorem trackReferral_matched (h : s.Alike t) {b : TrackBody} (hcode : trim b.referralCode ≠ "") :
    Matched Alike Alike (trackReferral b s) (trackReferral b t) := by
  refine pathOwner_matched h b.owner fun o ho => ?_
  exact call_matched h (Onboarding.trackReferral_matched h.world ho hcode)

theorem referralInstalled_matched (h : s.Alike t) (owner : String) :
    Matched Alike Alike (referralInstalled owner s) (referralInstalled owner t) := by
  refine pathOwner_matched h owner fun o ho => ?_
  exact call_matched h (markInstalled_matched h.world ho)

theorem referralStats_matched (h : s.Alike t) (owner : String) :
    Matched Alike Alike (referralStats owner s) (referralStats owner t) := by
  unfold referralStats
  cases howner : Owner.parse owner with
  | none => exact .error h
  | some o =>
    have ho := Owner.isHash_of_parse howner
    exact map_matched (call_matched h (senderStats_matched h.world ho)) _

theorem statistics_matched (h : s.Alike t) :
    Matched Alike Alike (statistics s) (statistics t) :=
  map_matched (call_matched h (registrationStats_matched h.world)) _

/-! ## Requests -/

/-- A handler's request is counted on both servers or on neither. -/
theorem counted_matched {h : Handler σ Json} {h' : Handler τ Json}
    (hh : Matched Alike Alike (h s) (h' t)) (name : String) (success : Json → Response) :
    Matched Alike Alike (counted name success h s) (counted name success h' t) := by
  have hanswer : ∀ {s : Server σ} {t : Server τ} (r : Response), s.Alike t →
      Matched Alike Alike (counted.answer name r s) (counted.answer name r t) := by
    intro s t r halike
    exact .ok ⟨halike.world, congrArg (·.observe name r.status 0) halike.metrics_eq⟩
  unfold counted
  generalize h s = out at hh ⊢
  generalize h' t = out' at hh ⊢
  cases hh with
  | ok halike => exact hanswer _ halike
  | @error e _ _ halike =>
    cases e with
    | service e =>
      dsimp only
      split
      · exact .error halike
      · exact hanswer _ halike
    | _ => exact hanswer _ halike

theorem silent_matched {h : Handler σ Unit} {h' : Handler τ Unit}
    (hh : Matched Alike Alike (h s) (h' t)) (name : String) :
    Matched Alike Alike (silent name h s) (silent name h' t) :=
  counted_matched (map_matched hh fun _ => Json.null) name _

theorem withBody_matched (h : s.Alike t) (q : HttpRequest) (schema : Schema α)
    {f : α → Outcome σ} {f' : α → Outcome τ}
    (hf : ∀ a, byteLength q.body ≤ maxBody → schema.ofJsonFront q.body = .ok a →
      Matched Alike Alike (f a s) (f' a t)) :
    Matched Alike Alike (withBody q schema f s) (withBody q schema f' t) := by
  unfold withBody refuse
  by_cases hkind : (!q.contentType.any MediaType.isJson) = true
  · rw [if_pos hkind, if_pos hkind]
    exact .ok h
  rw [if_neg hkind, if_neg hkind]
  by_cases hsize : maxBody < byteLength q.body
  · rw [if_pos hsize, if_pos hsize]
    exact .ok h
  rw [if_neg hsize, if_neg hsize]
  rcases hread : schema.ofJsonFront q.body with (_ | _) | a
  · exact .ok h
  · exact .ok h
  · exact hf a (Nat.not_lt.1 hsize) hread

theorem withPart_matched (h : s.Alike t) (part : List Char) {f : String → Outcome σ}
    {f' : String → Outcome τ} (hf : ∀ text, Matched Alike Alike (f text s) (f' text t)) :
    Matched Alike Alike (withPart part f s) (withPart part f' t) := by
  unfold withPart
  cases Target.segment? part with
  | none => exact .ok h
  | some text => exact hf text

/-- **What a route answers.** -/
theorem answer_matched (h : s.Alike t) (settings : Settings) (q : HttpRequest) (route : Route)
    (hcode : route = .trackReferral → ∀ b, TrackBody.schema.ofJsonFront q.body = .ok b →
      trim b.referralCode ≠ "") :
    Matched Alike Alike (answer settings q route s) (answer settings q route t) := by
  cases route with
  | register =>
    refine withBody_matched h q _ fun b hsize hbody => counted_matched ?_ _ _
    exact register_matched h settings (RegisterBody.short_of_ofJsonFront hsize hbody)
  | confirm owner code =>
    refine withPart_matched h owner fun owner => withPart_matched h code fun code => ?_
    exact silent_matched (confirm_matched h settings owner code) _
  | testnetStake =>
    refine withBody_matched h q _ fun b _ _ => counted_matched ?_ _ _
    exact testnetStake_matched h settings b
  | trackReferral =>
    refine withBody_matched h q _ fun b _ hbody => silent_matched ?_ _
    exact trackReferral_matched h (hcode rfl b hbody)
  | referralInstalled owner =>
    refine withPart_matched h owner fun owner => silent_matched ?_ _
    exact referralInstalled_matched h owner
  | referralStats owner =>
    refine withPart_matched h owner fun owner => counted_matched ?_ _ _
    exact referralStats_matched h owner
  | registrationStats => exact counted_matched (statistics_matched h) _ _
  | health =>
    have hhealth : health s = health t := by
      unfold health
      rw [h.world.ledger_eq]
    show Matched Alike Alike (.ok (health s), s) (.ok (health t), t)
    rw [hhealth]
    exact .ok h
  | metrics =>
    have hlines : s.metrics.lines = t.metrics.lines := by rw [h.metrics_eq]
    unfold answer
    dsimp only
    rw [hlines]
    exact .ok h

/-- **What a request is answered.** -/
theorem handle_matched (h : s.Alike t) (settings : Settings) {q : HttpRequest}
    (hq : q.GivesCode) :
    Matched Alike Alike (handle settings q s) (handle settings q t) := by
  rcases handle_cases settings q with ⟨x, -, hrefused⟩ | ⟨route, f, hreaches, -, hanswered⟩
  · rw [hrefused, hrefused]
    cases x with
    | ok r => exact .ok h
    | error e => exact .error h
  · have hanswer : Matched Alike Alike (answer settings q route s) (answer settings q route t) :=
      answer_matched h settings q route fun htrack => hq (htrack ▸ hreaches.routed)
    rw [hanswered, hanswered]
    generalize answer settings q route s = out at hanswer ⊢
    generalize answer settings q route t = out' at hanswer ⊢
    cases hanswer with
    | ok h' => exact .ok h'
    | error h' => exact .error h'

end Matching

end Server

/-! ## Runs -/

/-- What is seen of a server after an act. -/
structure Sight where
  /-- What the act was answered, if it was a request. -/
  answer? : Option (Except HttpFault Response)
  transfers : List Transfer
  outbox : List Mail
  registration : Owner → Option Registration
  referral : Owner → Option Referral

namespace Server

section Traces

variable {σ : Type} [Store σ]

/-- What a request is answered; other acts are not. -/
def answer? (settings : Settings) (s : Server σ) : ServerAct → Option (Except HttpFault Response)
  | .request q => some (handle settings q s).1
  | _ => none

/-- What is seen of a server, next to an answer that it gave. -/
def sight (s : Server σ) (answer? : Option (Except HttpFault Response)) : Sight where
  answer?
  transfers := s.world.ledger.transfers
  outbox := s.world.outbox
  registration o := (Store.registration s.world.store o).toOption
  referral o := (Store.referral s.world.store o).toOption

/-- What is seen of a server after every act of a run. -/
def trace [StoreView σ] (settings : Settings) : List ServerAct → Server σ → List Sight
  | [], _ => []
  | a :: acts, s =>
    (s.act settings a).sight (answer? settings s a) :: trace settings acts (s.act settings a)

/-- The server before the first request, with these entries on its denylist. -/
def seeded (clock : Timestamp) (domains : List String) : Server σ where
  world := { World.start clock with store := Store.seeded σ domains }

end Traces

namespace Alike

variable {σ τ : Type} [Store σ] [Store τ] [LawfulStore σ] [LawfulStore τ] {s : Server σ}
  {t : Server τ}

/-- Servers that are alike look the same. -/
theorem sight (h : s.Alike t) (answer? : Option (Except HttpFault Response)) :
    s.sight answer? = t.sight answer? := by
  unfold Server.sight
  rw [h.world.ledger_eq, h.world.outbox_eq]
  simp only [h.world.store.registration_toOption, h.world.store.referral_toOption]

variable [DenyingStore σ] [DenyingStore τ]

/-- **Servers with the same entries on their denylists** begin alike. -/
theorem seeded (clock : Timestamp) {domains : List String}
    (hdomains : ∀ d ∈ domains, IsDenylistEntry d) :
    (seeded clock domains : Server σ).Alike (seeded clock domains : Server τ) := by
  obtain ⟨hsound, hcontents, hquiet, -⟩ := Store.seeded_spec (σ := σ) domains hdomains
  obtain ⟨hsound', hcontents', hquiet', -⟩ := Store.seeded_spec (σ := τ) domains hdomains
  refine ⟨⟨⟨hsound, hsound', hquiet, hquiet', hcontents.trans hcontents'.symm, ?_⟩,
    rfl, rfl, rfl, rfl, rfl, rfl, rfl, nofun⟩, rfl⟩
  intro cs hcs
  exact (Store.isFraudDomain_seeded hdomains hcs).trans
    (Store.isFraudDomain_seeded hdomains hcs).symm

/-- **An act keeps two servers alike**, and is answered the same by both. -/
theorem act (h : s.Alike t) (settings : Settings) {a : ServerAct} (hsafe : a.Safe)
    (hcode : a.GivesCode) :
    answer? settings s a = answer? settings t a ∧ (s.act settings a).Alike (t.act settings a) := by
  cases a with
  | request q =>
    have hhandled := handle_matched h settings hcode
    exact ⟨congrArg some hhandled.fst_eq, hhandled.snd⟩
  | background place => exact ⟨rfl, h.world.background settings place, h.metrics_eq⟩
  | surround e => exact ⟨rfl, h.world.surround hsafe, h.metrics_eq⟩

/-- **A run of two servers that are alike** shows the same of both. -/
theorem trace (h : s.Alike t) (settings : Settings) {acts : List ServerAct}
    (hacts : ∀ a ∈ acts, a.Safe ∧ a.GivesCode) :
    s.trace settings acts = t.trace settings acts := by
  induction acts generalizing s t with
  | nil => rfl
  | cons a acts ih =>
    obtain ⟨hsafe, hcode⟩ := hacts a List.mem_cons_self
    obtain ⟨hanswer, hnext⟩ := h.act settings hsafe hcode
    have hrest := ih hnext fun a' ha' => hacts a' (List.mem_cons_of_mem a ha')
    show _ :: _ = _ :: _
    rw [hanswer, hnext.sight, hrest]

end Alike

/-- **A server does not show what kind of store it has.** From the same denylist, with the
same configuration and in the same surroundings, every run of requests and payouts is
answered and leaves behind the same, whatever the store. -/
theorem trace_seeded_eq (kind kind' : StoreKind) (settings : Settings) (clock : Timestamp)
    {domains : List String} (hdomains : ∀ d ∈ domains, IsDenylistEntry d)
    {acts : List ServerAct} (hacts : ∀ a ∈ acts, a.Safe ∧ a.GivesCode) :
    (seeded clock domains : Server kind.State).trace settings acts =
      (seeded clock domains : Server kind'.State).trace settings acts :=
  (Alike.seeded clock hdomains).trace settings hacts

/-- Requests that register two wallets and make the owner of one the inviter of the other.
The second is refused at first, for the domain of its email. -/
def trackedActs : List ServerAct :=
  let posting (target body : String) : ServerAct :=
    .request { method := "POST", target, contentType := some "application/json", body }
  [posting "/v1/register" ("\x7b\"email\":\" A@x.com\"," ++
      "\"address\":\"decentr1vg085ra5hw8mx5rrheqf8fruks0xv4urqkuqga\"\x7d"),
    posting "/v1/register" ("\x7b\"email\":\"b@mail.spam.example\"," ++
      "\"address\":\"decentr190vqdjtlpcq27xslcveglfmr4ynfwg7gt47r3m\"\x7d"),
    posting "/v1/register" ("\x7b\"email\":\"b@x.com\"," ++
      "\"address\":\"decentr190vqdjtlpcq27xslcveglfmr4ynfwg7gt47r3m\"\x7d"),
    posting "/v1/referral/track" ("\x7b\"owner\":\"bea112c11facdedc0ab577545efbafa8\"," ++
      "\"referral_code\":\" 00000004\"\x7d"),
    .surround { clock := ⟨1700000100⟩, refusesAll := true },
    .background 0]

/-- The two kinds of store answer these requests the same. -/
theorem trace_seeded_eq_tracked :
    (∀ d ∈ [" Spam.example"], IsDenylistEntry d) ∧ (∀ a ∈ trackedActs, a.Safe ∧ a.GivesCode) ∧
      (seeded ⟨1700000000⟩ [" Spam.example"] : Server StoreKind.table.State).trace { }
          trackedActs =
        (seeded ⟨1700000000⟩ [" Spam.example"] : Server StoreKind.indexed.State).trace { }
          trackedActs := by
  have hdomains : ∀ d ∈ [" Spam.example"], IsDenylistEntry d := by
    intro d hd
    rw [List.mem_singleton.1 hd]
    exact ⟨by decide, by decide⟩
  have hsafe : ∀ a ∈ trackedActs, a.Safe := by
    simp [trackedActs, ServerAct.Safe]
  have hcodes : ∀ a ∈ trackedActs, a.GivesCode := by decide +kernel
  have hacts : ∀ a ∈ trackedActs, a.Safe ∧ a.GivesCode := fun a ha => ⟨hsafe a ha, hcodes a ha⟩
  exact ⟨hdomains, hacts, trace_seeded_eq .table .indexed { } ⟨1700000000⟩ hdomains hacts⟩

end Server

end Onboarding
