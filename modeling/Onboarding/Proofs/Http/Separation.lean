import Mathlib.Data.Set.Function
import Onboarding.Proofs.Bech32.Address
import Onboarding.Proofs.Http.Spelling
import Onboarding.Proofs.Http.UnknownCode
import Onboarding.Proofs.Service.Provenance
import Onboarding.Proofs.Service.Recognition
/-!
# Separation — no email has the owner of a wallet

An owner is the hash of an email, or of a wallet behind a mark, and an email may begin with
that mark too. What keeps the two apart is the `@`: an email that is normalized has one, an
address that is accepted has none unless its prefix does (`Owner.bytes_addressKey_ne`).

That the owners differ as well is up to the hash, which cannot be without collisions. They
are ruled out on a set of inputs only, in which all those lie that the requests of a run have
the server hash (`HttpRequest.Hashes`). Then every row of the store was made from one of these
inputs (`Registration.Rooted`), and the row of an owner tells which.
-/

namespace Onboarding

open StoreView

/-! ## What is hashed -/

theorem Email.at_mem_of_normalize? {raw email : String} (h : normalize? raw = some email) :
    '@' ∈ email.toList := by
  obtain ⟨user, domain, hparts, -⟩ := (isCanonical_of_normalize? h).parts
  rw [hparts]
  simp

theorem Bech32.letter_ne_at (g : Group) : letter g ≠ '@' := by
  revert g
  decide

namespace Owner

/-- An address that is accepted has an `@` only in its prefix. -/
theorem at_not_mem_addressKey {address pre : String} (hpre : '@' ∉ pre.toList)
    (h : Bech32.validate address pre = .ok ()) : '@' ∉ (addressKey address).toList := by
  obtain ⟨-, -, data, gs, n, hsplit, -, hgroups, -, -⟩ := Bech32.validate_eq_ok.1 h
  have hfolded := (splitLast?_eq_some_iff.1 hsplit).1
  rw [Bech32.groups_eq_ok_iff.1 hgroups] at hfolded
  have hkey : (addressKey address).toList =
      "address:".toList ++ (pre.toList ++ '1' :: gs.map Bech32.letter) := by
    unfold addressKey asciiLower
    rw [String.toList_append, ← hfolded]
    exact congrArg _ String.toList_ofList
  rw [hkey]
  simp only [List.mem_append, List.mem_cons, List.mem_map, not_or]
  refine ⟨by decide, hpre, by decide, ?_⟩
  rintro ⟨g, -, hg⟩
  exact Bech32.letter_ne_at g hg

/-- **No email is hashed as a wallet is.** -/
theorem bytes_addressKey_ne {address pre raw email : String} (hpre : '@' ∉ pre.toList)
    (haddress : Bech32.validate address pre = .ok ()) (hemail : Email.normalize? raw = some email) :
    Utf8.bytes (addressKey address) ≠ Utf8.bytes email := by
  intro h
  have hat := Email.at_mem_of_normalize? hemail
  rw [← Utf8.bytes_inj.1 h] at hat
  exact at_not_mem_addressKey hpre haddress hat

/-- **Wallets are hashed alike if and only if they are spellings of one.** -/
theorem bytes_addressKey_inj {a b : String} :
    Utf8.bytes (addressKey a) = Utf8.bytes (addressKey b) ↔
      (WalletAddress.mk a).SameWallet ⟨b⟩ := by
  rw [Utf8.bytes_inj]
  unfold addressKey WalletAddress.SameWallet
  rw [← String.toList_inj, String.toList_append, String.toList_append, List.append_cancel_left_eq,
    String.toList_inj]

/-- Where the hash has no collisions, owners tell what was hashed. -/
theorem eq_of_hash_eq {X : Set (List UInt8)} (hX : Set.InjOn blake2b128 X) {m m' : List UInt8}
    (hm : m ∈ X) (hm' : m' ∈ X)
    (h : (⟨Hex.encode (blake2b128 m)⟩ : Owner) = ⟨Hex.encode (blake2b128 m')⟩) : m = m' := by
  have htext := congrArg text h
  exact hX hm hm' (Hex.encode_injective htext)

end Owner

/-- What a request has the server hash to an owner: the email that it registers, or the wallet
that it asks a grant for. -/
inductive HttpRequest.Hashes (settings : Settings) (q : HttpRequest) : List UInt8 → Prop
  | email {b : RegisterBody} {email : String} (posts : q.Posts .register RegisterBody.schema b)
      (normal : Email.normalize? b.email = some email) :
    Hashes settings q (Utf8.bytes email)
  | wallet {b : StakeBody} (posts : q.Posts .testnetStake StakeBody.schema b)
      (valid : Bech32.validate (trim b.address) settings.addressPrefix = .ok ()) :
    Hashes settings q (Utf8.bytes (Owner.addressKey (trim b.address)))

/-! ## Where a row comes from -/

/-- A registration was made from one of these inputs, by an email or for a wallet alone. -/
inductive Registration.Rooted (settings : Settings) (X : Set (List UInt8)) (r : Registration) :
    Prop
  | email {raw : String} (normal : Email.normalize? raw = some r.email)
      (owner_eq : r.owner = .ofEmail r.email) (hashed : Utf8.bytes r.email ∈ X)
  | wallet (valid : Bech32.validate r.address.text settings.addressPrefix = .ok ())
      (owner_eq : r.owner = .ofAddress r.address.text) (silent : r.email = "")
      (hashed : Utf8.bytes (Owner.addressKey r.address.text) ∈ X)

namespace Registration.Rooted

variable {settings : Settings} {X Y : Set (List UInt8)} {r r' : Registration}

theorem mono (h : r.Rooted settings X) (hXY : X ⊆ Y) : r.Rooted settings Y := by
  cases h with
  | email normal owner_eq hashed => exact .email normal owner_eq (hXY hashed)
  | wallet valid owner_eq silent hashed => exact .wallet valid owner_eq silent (hXY hashed)

/-- A later form of a registration has the same roots. -/
theorem grows (h : r.Rooted settings X) (hgrows : r.Grows r') : r'.Rooted settings X := by
  obtain ⟨howner, hemail, haddress, -⟩ := hgrows
  cases h with
  | email normal owner_eq hashed =>
    rw [← hemail] at normal owner_eq hashed
    exact .email normal (howner.trans owner_eq) hashed
  | wallet valid owner_eq silent hashed =>
    rw [← haddress] at valid owner_eq hashed
    exact .wallet valid (howner.trans owner_eq) (hemail.trans silent) hashed

end Registration.Rooted

/-- An entry that stores a registration for an owner who had none. -/
inductive Entry.Creates (r : Registration) : Entry → Prop
  | enrolled : Creates r (.enrolled r)
  | granted : Creates r (.granted r)

/-- What is created is a success of its own. -/
theorem Entry.Creates.success? {entry : Entry} {r : Registration} (h : entry.Creates r) :
    entry.success? = some .registered ∨ entry.success? = some .granted := by
  cases h with
  | enrolled => exact .inl rfl
  | granted => exact .inr rfl

/-- **Every row was created**, now or at some time before. -/
theorem Step.creates {settings : Settings} {now : Timestamp} {b b' : Books} {entry : Entry}
    (h : Step settings now b entry b') {r : Registration} (hr : b'.contents.Holds r) :
    entry.Creates r ∨ ∃ q, b.contents.Holds q ∧ q.Grows r := by
  cases h with
  | nothing | stakeRefused _ _ | stakeLost _ _ _ | grantRefused _ _ _ | grantLost _ _ _
  | installed _ _ _ | paid _ _ _ _ _ _ _ _ => exact .inr ⟨r, hr, .refl r⟩
  | enrolled _ _ _ _ _ _ _ _ =>
    rcases Contents.holds_put.1 (Contents.holds_invite.1 hr) with rfl | ⟨-, hold⟩
    · exact .inl .enrolled
    · exact .inr ⟨r, hold, .refl r⟩
  | renewed held fresh _ _ _ | tracked held fresh _ _ =>
    rcases Contents.holds_put.1 (Contents.holds_invite.1 hr) with rfl | ⟨-, hold⟩
    · exact .inr ⟨_, held, .of_fresh fresh rfl rfl rfl⟩
    · exact .inr ⟨r, hold, .refl r⟩
  | confirmed held fresh =>
    rcases Contents.holds_put.1 hr with rfl | ⟨-, hold⟩
    · exact .inr ⟨_, held, .of_fresh fresh rfl rfl rfl⟩
    · exact .inr ⟨r, hold, .refl r⟩
  | granted _ _ _ _ _ _ _ _ _ =>
    rcases Contents.holds_put.1 hr with rfl | ⟨-, hold⟩
    · exact .inl .granted
    · exact .inr ⟨r, hold, .refl r⟩

/-- A grant that succeeds is one for an address that is accepted. -/
theorem validate_of_grantTestnetStake {σ : Type} [Store σ] {settings : Settings}
    {address : WalletAddress} {w : World σ} {o : Owner}
    (h : (grantTestnetStake settings address w).1 = .ok o) :
    Bech32.validate address.text settings.addressPrefix = .ok () := by
  have hout := Prod.eta (grantTestnetStake settings address w)
  rw [h] at hout
  unfold grantTestnetStake at hout
  cases hstake : settings.testnetStake with
  | none =>
    rw [hstake] at hout
    cases hout
  | some stake =>
    rw [hstake] at hout
    obtain ⟨_, w', hcheck, -⟩ := Computation.bind_eq_ok hout.symm
    unfold Enrollment.checkAddress at hcheck
    cases hvalid : Bech32.validate address.text settings.addressPrefix with
    | ok u => rfl
    | error e =>
      rw [hvalid] at hcheck
      cases hcheck

/-- A call made an entry, and if it created a row it made it from one of these inputs. -/
def MadeFrom {σ : Type} [Store σ] [StoreView σ] (settings : Settings) (X : Set (List UInt8))
    (w w' : World σ) : Prop :=
  ∃ entry, Made settings w w' entry ∧ ∀ r, entry.Creates r → r.Rooted settings X

theorem MadeFrom.nothing {σ : Type} [Store σ] [StoreView σ] {settings : Settings}
    {X : Set (List UInt8)} {w : World σ} (hw : w.Good) : MadeFrom settings X w w :=
  ⟨.nothing, .nothing hw w.random, nofun⟩

namespace Server

/-- A body is read, or nothing happens. -/
theorem withBody_cases {σ β : Type} {q : HttpRequest} {route : Route} {schema : Schema β}
    (hreaches : q.Reaches route) (htaken : route.method = .post) (f : β → Outcome σ)
    (s : Server σ) :
    (withBody q schema f s).2 = s ∨
      ∃ b, q.Posts route schema b ∧ withBody q schema f s = f b s := by
  by_cases hjson : q.contentType.any MediaType.isJson = true
  swap
  · left
    simp [withBody, hjson, refuse]
  by_cases hsized : maxBody < byteLength q.body
  · left
    simp [withBody, hjson, hsized, refuse]
  cases hbody : schema.ofJsonFront q.body with
  | error e =>
    left
    cases e <;> simp [withBody, hjson, hsized, hbody, refuse]
  | ok b =>
    have hposts : q.Posts route schema b :=
      ⟨hreaches.formed, hreaches.routed, htaken, hreaches.posted htaken, hjson,
        Nat.not_lt.1 hsized, hbody⟩
    exact .inr ⟨b, hposts, withBody_of_posts hposts f ▸ rfl⟩

variable {σ : Type} [Store σ] [LawfulStore σ] {settings : Settings} {s : Server σ}
  {q : HttpRequest}

/-- A registration is made from the normalized email. -/
theorem register_madeFrom (hs : s.world.Good) {b : RegisterBody}
    (hposts : q.Posts .register RegisterBody.schema b) :
    MadeFrom settings {m | q.Hashes settings m} s.world (register settings b s).2.world := by
  have hshort : b.Short := RegisterBody.short_of_ofJsonFront hposts.sized hposts.body
  cases hnormal : Email.normalize? b.email with
  | none =>
    have hrefused : register settings b s = (.error (.invalid "invalid email"), s) := by
      unfold register
      rw [hnormal]
      rfl
    rw [hrefused]
    exact .nothing hs
  | some email =>
    rcases register_enters hs hshort hnormal with ⟨p, entry, hentry, howner, hmade⟩ | ⟨-, hmade⟩
    · refine ⟨entry, hmade, fun r hr => ?_⟩
      rcases hentry with ⟨rfl, hemail⟩ | rfl
      · cases hr
        rw [← hemail] at hnormal howner
        exact .email hnormal howner (.email hposts hnormal)
      · cases hr
    · exact ⟨.nothing, hmade, nofun⟩

/-- A grant is made from the wallet. -/
theorem testnetStake_madeFrom (hs : s.world.Good) {b : StakeBody}
    (hposts : q.Posts .testnetStake StakeBody.schema b) :
    MadeFrom settings {m | q.Hashes settings m} s.world (testnetStake settings b s).2.world := by
  obtain ⟨entry, hanswer, hmade⟩ : ∃ entry,
      Granting s.world ⟨trim b.address⟩
        (grantTestnetStake settings ⟨trim b.address⟩ s.world).1 entry ∧
      Made settings s.world (grantTestnetStake settings ⟨trim b.address⟩ s.world).2 entry :=
    grantTestnetStake_made hs _
  have hworld : (testnetStake settings b s).2.world =
      (grantTestnetStake settings ⟨trim b.address⟩ s.world).2 := by
    unfold testnetStake
    rw [Computation.bind_pure_snd]
    unfold call
    split <;> rename_i hout <;> rw [hout]
  refine ⟨entry, hworld ▸ hmade, fun r hr => ?_⟩
  generalize hout : (grantTestnetStake settings ⟨trim b.address⟩ s.world).1 = out at hanswer
  cases hanswer with
  | done owner_eq address_eq =>
    cases hr
    have hvalid := validate_of_grantTestnetStake hout
    have htext : r.address.text = trim b.address := congrArg WalletAddress.text address_eq
    refine .wallet (htext ▸ hvalid) (htext ▸ owner_eq) hmade.step.silent_of_granted ?_
    rw [htext]
    exact .wallet hposts hvalid
  | failed | refused | lost => cases hr

/-- On the other routes nothing is created: what succeeds there is another success, or none. -/
theorem answer_madeFrom_of_success (hs : s.world.Good) {route : Route}
    (hregistered : route.success? ≠ some .registered) (hgranted : route.success? ≠ some .granted)
    (X : Set (List UInt8)) :
    MadeFrom settings X s.world (answer settings q route s).2.world := by
  obtain ⟨entry, hserved⟩ := answer_served settings hs q route
  refine ⟨entry, hserved.made, fun r hr => ?_⟩
  have hsuccess := hserved.success
  rcases hr.success? with hentry | hentry
  · rw [hentry] at hsuccess
    split at hsuccess
    · exact absurd hsuccess.symm hregistered
    · cases hsuccess
  · rw [hentry] at hsuccess
    split at hsuccess
    · exact absurd hsuccess.symm hgranted
    · cases hsuccess

/-- **What a request creates** was made from what it has the server hash. -/
theorem answer_madeFrom (hs : s.world.Good) {route : Route} (hreaches : q.Reaches route) :
    MadeFrom settings {m | q.Hashes settings m} s.world (answer settings q route s).2.world := by
  cases route with
  | register =>
    have hanswer : answer settings q .register s = withBody q RegisterBody.schema
        (fun b => replying "register" (register settings b)) s := rfl
    rw [hanswer]
    rcases withBody_cases hreaches rfl _ s with hsame | ⟨b, hposts, hbody⟩
    · rw [hsame]
      exact .nothing hs
    · rw [hbody, replying, world_counted]
      exact register_madeFrom hs hposts
  | testnetStake =>
    have hanswer : answer settings q .testnetStake s = withBody q StakeBody.schema
        (fun b => replying "testnet_stake" (testnetStake settings b)) s := rfl
    rw [hanswer]
    rcases withBody_cases hreaches rfl _ s with hsame | ⟨b, hposts, hbody⟩
    · rw [hsame]
      exact .nothing hs
    · rw [hbody, replying, world_counted]
      exact testnetStake_madeFrom hs hposts
  | confirm _ _ | trackReferral | referralInstalled _ | referralStats _ | registrationStats
  | health | metrics =>
    refine answer_madeFrom_of_success hs ?_ ?_ _
    · simp [Route.success?]
    · simp [Route.success?]

theorem handle_madeFrom (settings : Settings) (hs : s.world.Good) (q : HttpRequest) :
    MadeFrom settings {m | q.Hashes settings m} s.world (handle settings q s).2.world := by
  rcases handle_cases settings q with ⟨x, -, hrefused⟩ | ⟨route, f, hreaches, -, hanswered⟩
  · rw [hrefused]
    exact .nothing hs
  · rw [hanswered]
    exact answer_madeFrom hs hreaches

/-! ## Whole runs -/

/-- Every row of the store was made from one of these inputs. -/
structure Rooted (settings : Settings) (X : Set (List UInt8)) (s : Server σ) : Prop where
  good : s.world.Good
  rows : ∀ r, (contents s.world.store).Holds r → r.Rooted settings X

namespace Rooted

variable {X : Set (List UInt8)}

theorem start (settings : Settings) (X : Set (List UInt8)) (clock : Timestamp) :
    Rooted settings X (start clock : Server σ) := by
  refine ⟨World.good_start clock, fun r hr => ?_⟩
  have hempty : contents (Server.start clock : Server σ).world.store = .empty :=
    World.contents_start clock
  rw [hempty] at hr
  cases hr

/-- An entry that creates nothing but what is rooted leaves nothing but what is. -/
theorem rows_of_step {now : Timestamp} {b b' : Books} {entry : Entry}
    (h : ∀ r, b.contents.Holds r → r.Rooted settings X) (hstep : Step settings now b entry b')
    (hcreates : ∀ r, entry.Creates r → r.Rooted settings X) (r : Registration)
    (hr : b'.contents.Holds r) : r.Rooted settings X := by
  rcases hstep.creates hr with hnew | ⟨p, hp, hgrows⟩
  · exact hcreates r hnew
  · exact (h p hp).grows hgrows

theorem act (h : Rooted settings X s) (a : ServerAct)
    (hashed : ∀ q, a = .request q → ∀ m, q.Hashes settings m → m ∈ X) :
    Rooted settings X (s.act settings a) := by
  cases a with
  | request q =>
    obtain ⟨entry, hmade, hcreates⟩ := handle_madeFrom settings h.good q
    refine ⟨hmade.good, rows_of_step h.rows hmade.step fun r hr => ?_⟩
    exact (hcreates r hr).mono (hashed q rfl)
  | background place =>
    have hevent := act_event settings h.good (.background place)
    have hgood := hevent.good h.good
    show Rooted settings X { s with world := s.world.act settings (.background place) }
    refine ⟨hgood, ?_⟩
    dsimp only
    generalize s.world.act settings (.background place) = w at hevent
    cases hevent with
    | advanced _ made done =>
      refine rows_of_step h.rows made.step fun r hr => ?_
      rcases done with ⟨p, rfl, -⟩ | ⟨rfl, -⟩ <;> cases hr
    | idle _ => exact h.rows
  | surround e =>
    have hgood := (act_event settings h.good (.surround e)).good h.good
    refine ⟨hgood, fun r hr => h.rows r ?_⟩
    have hcontents := LawfulStore.contents_failOn e.failing s.world.store
    rw [← hcontents]
    exact hr

theorem run (acts : List ServerAct) (h : Rooted settings X s)
    (hashed : ∀ q, .request q ∈ acts → ∀ m, q.Hashes settings m → m ∈ X) :
    Rooted settings X (s.run settings acts) := by
  induction acts using List.reverseRecOn with
  | nil => exact h
  | append_singleton acts a ih =>
    rw [run_concat]
    refine (ih fun q hq => hashed q (List.mem_append_left _ hq)).act a fun q hq => ?_
    exact hashed q (by simp [hq])

end Rooted

/-- Emails and wallets among these inputs have owners of their own: the row of a wallet's owner
was granted to the wallet, and the row of an email's owner was registered with the email. -/
structure Separated [StoreView σ] (settings : Settings) (X : Set (List UInt8)) (s : Server σ) :
    Prop where
  owners_ne : ∀ address raw email, Bech32.validate address settings.addressPrefix = .ok () →
    Email.normalize? raw = some email → Utf8.bytes (Owner.addressKey address) ∈ X →
    Utf8.bytes email ∈ X → Owner.ofAddress address ≠ Owner.ofEmail email
  wallet : ∀ address r, Bech32.validate address settings.addressPrefix = .ok () →
    Utf8.bytes (Owner.addressKey address) ∈ X →
    (contents s.world.store).registration (.ofAddress address) = some r →
      r.email = "" ∧ r.address.SameWallet ⟨address⟩
  email : ∀ raw email r, Email.normalize? raw = some email → Utf8.bytes email ∈ X →
    (contents s.world.store).registration (.ofEmail email) = some r → r.email = email

theorem Rooted.separated {X : Set (List UInt8)} (h : Rooted settings X s)
    (hpre : '@' ∉ settings.addressPrefix.toList) (hX : Set.InjOn blake2b128 X) :
    Separated settings X s := by
  have hne {address raw email : String}
      (haddress : Bech32.validate address settings.addressPrefix = .ok ())
      (hemail : Email.normalize? raw = some email)
      (hkey : Utf8.bytes (Owner.addressKey address) ∈ X) (hbytes : Utf8.bytes email ∈ X) :
      Owner.ofAddress address ≠ Owner.ofEmail email := fun heq =>
    Owner.bytes_addressKey_ne hpre haddress hemail (Owner.eq_of_hash_eq hX hkey hbytes heq)
  have hcoherent := LawfulStore.coherent h.good.sound
  have hrooted {o : Owner} {r : Registration}
      (hr : (contents s.world.store).registration o = some r) : r.Rooted settings X :=
    h.rows r (hcoherent.holds hr)
  constructor
  · intro address raw email haddress hemail hkey hbytes
    exact hne haddress hemail hkey hbytes
  · intro address r haddress hkey hr
    have howner := hcoherent.owner_eq hr
    cases hrooted hr with
    | email normal owner_eq hashed =>
      exact absurd (howner.symm.trans owner_eq) (hne haddress normal hkey hashed)
    | wallet valid owner_eq silent hashed =>
      have hsame := Owner.eq_of_hash_eq hX hashed hkey (owner_eq.symm.trans howner)
      exact ⟨silent, Owner.bytes_addressKey_inj.1 hsame⟩
  · intro raw email r hemail hbytes hr
    have howner := hcoherent.owner_eq hr
    cases hrooted hr with
    | email normal owner_eq hashed =>
      have hsame := Owner.eq_of_hash_eq hX hashed hbytes (owner_eq.symm.trans howner)
      exact Utf8.bytes_inj.1 hsame
    | wallet valid owner_eq silent hashed =>
      exact absurd (owner_eq.symm.trans howner) (hne valid hemail hashed hbytes)

/-- **Emails and wallets are kept apart.** With a prefix that has no `@` they are not hashed
alike; two wallets are hashed alike if and only if they are spellings of one; and as long as
the hash has no collisions on what the requests of a run have it hash, no registration has the
owner of a wallet and no grant the owner of an email. -/
theorem owners_separate :
    (∀ pre address raw email : String, '@' ∉ pre.toList → Bech32.validate address pre = .ok () →
      Email.normalize? raw = some email →
        Utf8.bytes (Owner.addressKey address) ≠ Utf8.bytes email) ∧
    (∀ a b : WalletAddress, Utf8.bytes (Owner.addressKey a.text) =
      Utf8.bytes (Owner.addressKey b.text) ↔ a.SameWallet b) ∧
    ∀ (kind : StoreKind) (settings : Settings) (clock : Timestamp) (acts : List ServerAct)
      (X : Set (List UInt8)), '@' ∉ settings.addressPrefix.toList → Set.InjOn blake2b128 X →
      (∀ q, .request q ∈ acts → ∀ m, q.Hashes settings m → m ∈ X) →
        Separated settings X ((start clock : Server kind.State).run settings acts) := by
  refine ⟨fun pre address raw email => Owner.bytes_addressKey_ne,
    fun a b => Owner.bytes_addressKey_inj,
    fun kind settings clock acts X hpre hX hashed => ?_⟩
  exact ((Rooted.start settings X clock).run acts hashed).separated hpre hX

/-! ### An email and a wallet -/

deriving instance DecidableEq for StakeBody

/-- A request for a grant to a wallet. -/
def granting (address : String) : HttpRequest where
  method := "POST"
  target := "/v1/testnet/stake"
  contentType := some "application/json"
  body := "\x7b\"address\":\"" ++ address ++ "\"\x7d"

/-- What an email and a wallet are hashed from. -/
def apart : Set (List UInt8) :=
  {Utf8.bytes "a@x.com", Utf8.bytes (Owner.addressKey Shared.wallet.text)}

theorem injOn_apart : Set.InjOn blake2b128 apart := by
  have hne : Owner.ofEmail "a@x.com" ≠ Owner.ofAddress Shared.wallet.text := by
    rw [Shared.ofEmail_first, Lost.ofAddress_wallet]
    decide
  have hdiffer : blake2b128 (Utf8.bytes "a@x.com") ≠
      blake2b128 (Utf8.bytes (Owner.addressKey Shared.wallet.text)) := fun heq =>
    hne (congrArg (fun hash => Owner.mk (Hex.encode hash)) heq)
  rintro m (rfl | rfl) m' (rfl | rfl) heq
  · rfl
  · exact absurd heq hdiffer
  · exact absurd heq.symm hdiffer
  · rfl

theorem hashes_apart {q : HttpRequest}
    (hq : q = registering "a@x.com" ∨ q = granting Shared.wallet.text) {m : List UInt8}
    (hm : q.Hashes Lost.settings m) : m ∈ apart := by
  rcases hq with rfl | rfl
  · have hroute : (registering "a@x.com").route? = some .register := by decide +kernel
    have hbody : RegisterBody.schema.ofJsonFront (registering "a@x.com").body =
        .ok (registeringBody "a@x.com") := by
      decide +kernel
    have hnormal : Email.normalize? (registeringBody "a@x.com").email = some "a@x.com" := by
      decide +kernel
    cases hm with
    | email posts normal =>
      cases posts.body.symm.trans hbody
      cases normal.symm.trans hnormal
      exact .inl rfl
    | wallet posts _ => cases posts.routed.symm.trans hroute
  · have hroute : (granting Shared.wallet.text).route? = some .testnetStake := by decide +kernel
    have hbody : StakeBody.schema.ofJsonFront (granting Shared.wallet.text).body =
        .ok ⟨Shared.wallet.text⟩ := by
      decide +kernel
    have htrim : trim Shared.wallet.text = Shared.wallet.text := by decide +kernel
    cases hm with
    | email posts _ => cases posts.routed.symm.trans hroute
    | wallet posts _ =>
      cases posts.body.symm.trans hbody
      rw [htrim]
      exact .inr rfl

/-- An email that begins like what is hashed for a wallet, and a run that registers an email and
grants to a wallet. -/
theorem owners_separate_apart :
    Utf8.bytes (Owner.addressKey Shared.wallet.text) ≠ Utf8.bytes "address:a@x.com" ∧
      Set.InjOn blake2b128 apart ∧
      Separated Lost.settings apart ((start ⟨1700000000⟩ : Server StoreKind.indexed.State).run
        Lost.settings
        [.request (registering "a@x.com"), .request (granting Shared.wallet.text)]) := by
  obtain ⟨hne, -, hseparated⟩ := owners_separate
  have hpre : '@' ∉ Lost.settings.addressPrefix.toList := by decide
  have haddress : Bech32.validate Shared.wallet.text Lost.settings.addressPrefix = .ok () := by
    decide +kernel
  have hemail : Email.normalize? "address:A@x.com" = some "address:a@x.com" := by decide +kernel
  refine ⟨hne _ _ _ _ hpre haddress hemail, injOn_apart, ?_⟩
  refine hseparated .indexed _ _ _ apart hpre injOn_apart fun q hq m hm => ?_
  exact hashes_apart (by simpa using hq) hm

end Server

end Onboarding
