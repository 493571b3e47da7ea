import Onboarding.Proofs.Host
import Onboarding.Proofs.Store.Calls
import Onboarding.Proofs.Store.Denylist
/-!
# Listing — what becomes of an entry, whatever it is

Any text may be put on a denylist, in any state of the store. A `ListingStore` lists what it
accepts under one key, which is the entry's own and the same in every state, and drops it
never: no write takes a key off (`stable_denies`). The two stores make different
keys of one entry. The one in memory takes the `host`; the one of tables takes the entry as
it stands, and an `@` in it stays in its key.

The second half is about looking up. A domain is refused for a key that it ends in, and for
none that has as many dots unless it is that key (`Store.hasFraudDomain_eq_true`).
-/

namespace Onboarding

open StoreView

/-! ## Stability -/

/-- No write of a record takes `I` away, whether it succeeds or fails. -/
structure Store.RecordStable {σ : Type} [Store σ] (I : σ → Prop) : Prop where
  putRegistration (r : Registration) : Computation.Preserves I (Store.putRegistration r)
  confirmRegistration (o : Owner) (time : Timestamp) :
    Computation.Preserves I (Store.confirmRegistration o time)
  createConfirmed (r : Registration) : Computation.Preserves I (Store.createConfirmed r)
  createReferral (sender receiver : Owner) (time : Timestamp) :
    Computation.Preserves I (Store.createReferral sender receiver time)
  installReferral (o : Owner) (time : Timestamp) :
    Computation.Preserves I (Store.installReferral o time)
  confirmReferral (o : Owner) (a b : TokenAmount) (time : Timestamp) :
    Computation.Preserves I (Store.confirmReferral o a b time)

/-- No write at all takes `I` away. -/
structure Store.Stable {σ : Type} [Store σ] (I : σ → Prop) : Prop extends Store.RecordStable I where
  putFraudDomain (domain : String) : Computation.Preserves I (Store.putFraudDomain domain)

theorem Store.RecordStable.true {σ : Type} [Store σ] : Store.RecordStable fun _ : σ => True := by
  constructor <;> intros <;> exact .of_snd fun _ _ => trivial

theorem Store.Stable.true {σ : Type} [Store σ] : Store.Stable fun _ : σ => True where
  toRecordStable := .true
  putFraudDomain _ := .of_snd fun _ _ => trivial

namespace StoreCall

mutual

theorem each_true (c : StoreCall) : c.Each fun _ => True := by
  cases c with
  | transaction steps _ => exact eachOf_true steps
  | _ => trivial

theorem eachOf_true (steps : List StoreCall) : EachOf (fun _ => True) steps := by
  cases steps with
  | nil => trivial
  | cons step rest => exact ⟨each_true step, eachOf_true rest⟩

end

/-- What no write takes away no call does, and no transaction of calls. -/
theorem run_of_stable {σ : Type} [Store σ] {I : σ → Prop} (h : Store.Stable I)
    (c : StoreCall) {s : σ} (hs : I s) : I (run c s).2 := by
  refine keeps_run (P := fun _ => True) (fun c s _ hs => ?_) (each_true c) hs
  have hanswered {op : StoreM σ Unit} (hop : Computation.Preserves I op) :
      I ((do op; return StoreReply.done : StoreM σ StoreReply) s).2 :=
    (hop.bind fun _ => .pure _).snd hs
  cases c with
  | putRegistration r => exact hanswered (h.putRegistration r)
  | confirmRegistration o time => exact hanswered (h.confirmRegistration o time)
  | createConfirmed r => exact hanswered (h.createConfirmed r)
  | createReferral sender receiver time => exact hanswered (h.createReferral sender receiver time)
  | installReferral o time => exact hanswered (h.installReferral o time)
  | confirmReferral o a b time => exact hanswered (h.confirmReferral o a b time)
  | putFraudDomain domain => exact hanswered (h.putFraudDomain domain)
  -- every other call only reads
  | _ => exact hs

end StoreCall

/-! ## Small letters -/

theorem asciiLower_ofList_eq_empty {cs : List Char} :
    asciiLower (String.ofList cs) = "" ↔ cs = [] := by
  rw [asciiLower, String.toList_ofList, ← String.toList_inj, String.toList_ofList]
  exact List.map_eq_nil_iff

/-- The domain of an email is in small letters already. -/
theorem toLower_of_emailDomain? {email domain : String} (h : emailDomain? email = some domain) :
    ∀ c ∈ domain.toList, c.toLower = c := by
  unfold emailDomain? at h
  split at h
  · cases h
  split at h
  · cases h
  obtain rfl := Option.some.inj h
  intro c hc
  rw [asciiLower, String.toList_ofList] at hc
  obtain ⟨d, -, rfl⟩ := List.mem_map.1 hc
  exact toLower_toLower d

theorem asciiLower_ofList {cs : List Char} (h : ∀ c ∈ cs, c.toLower = c) :
    asciiLower (String.ofList cs) = String.ofList cs := by
  rw [asciiLower, String.toList_ofList]
  exact congrArg String.ofList ((List.map_congr_left h).trans (List.map_id _))

theorem count_dot_map_toLower (cs : List Char) :
    (cs.map Char.toLower).count '.' = cs.count '.' := by
  rw [List.count_eq_countP, List.count_eq_countP, List.countP_map]
  refine List.countP_congr fun c _ => ?_
  rw [Function.comp_apply, beq_iff_eq, beq_iff_eq]
  refine ⟨toLower_eq_dot, ?_⟩
  rintro rfl
  rfl

/-! ## Listing -/

/-- An entry that is accepted is put. -/
theorem StoreCall.run_putFraudDomain {σ : Type} [Store σ] {s s' : σ} {domain : String}
    (h : Store.putFraudDomain domain s = (.ok (), s')) :
    ((StoreCall.putFraudDomain domain).run s).2 = s' := by
  have hsimple : simple (.putFraudDomain domain) s = (.ok .done, s') := Computation.bind_of_ok h
  show (Store.alone (simple (.putFraudDomain domain)) s).2 = s'
  unfold Store.alone
  rw [hsimple]

/-- A denying store that lists whatever it accepts and keeps it. -/
class ListingStore (σ : Type) [Store σ] [LawfulStore σ] extends DenyingStore σ where
  /-- What an entry is listed under. -/
  listedAs : String → String
  /-- What one state accepts is accepted by every other. -/
  accepts {s t : σ} {domain : String} : .putFraudDomain ∉ failing t →
    (Store.putFraudDomain domain s).1 = .ok () → (Store.putFraudDomain domain t).1 = .ok ()
  denies_put {s s' : σ} {domain : String} (key : String) :
    Store.putFraudDomain domain s = (.ok (), s') →
      (Denies s' key ↔ Denies s key ∨ key = listedAs domain)
  listedAs_ne {s : σ} {domain : String} :
    (Store.putFraudDomain domain s).1 = .ok () → listedAs domain ≠ ""
  sound_put {s : σ} (domain : String) : Sound s → Sound (Store.putFraudDomain domain s).2
  failing_put (s : σ) (domain : String) : failing (Store.putFraudDomain domain s).2 = failing s
  denies_failOn (ops : List StoreOp) (s : σ) (key : String) :
    Denies (failOn ops s) key ↔ Denies s key
  /-- Other operations may fail. -/
  isFraudDomain_of_quiet {s : σ} {cs : List Char} : .isFraudDomain ∉ failing s →
    IsPlainDomain cs → ∃ listed, Store.isFraudDomain s (String.ofList cs) = .ok listed ∧
      (listed = true ↔ Denies s (asciiLower (String.ofList cs)))
  stable_denies (key : String) : Store.Stable (Denies · key : σ → Prop)
  /-- Records are not written to the denylist. -/
  recordStable_denies (denied : String → Prop) : Store.RecordStable (Denies · = denied : σ → Prop)

namespace TableStore

variable {s s' : TableStore}

theorem read_of_not_mem {op : StoreOp} (h : op ∉ s.failing) {α : Type}
    (x : Except StoreError α) : s.read op x = x :=
  (s.read_eq op x).resolve_right fun hbroken => h hbroken.1

/-! ### Writes of records -/

/-- A write leaves the denylist that its change leaves. -/
theorem preserves_write {P : Std.ExtTreeMap String Unit → Prop} {op : StoreOp}
    {change : TableStore → Except StoreError TableStore}
    (h : ∀ s s', change s = .ok s' → s'.fraudDomains = s.fraudDomains) :
    Computation.Preserves (fun s : TableStore => P s.fraudDomains) (write op change) := by
  refine .of_snd fun s hs => ?_
  unfold write
  rcases s.read_eq op (change s) with hread | ⟨-, reason, hread⟩
  · rw [hread]
    cases hchange : change s with
    | error e => exact hs
    | ok s' =>
      show P s'.fraudDomains
      rwa [h s s' hchange]
  · rwa [hread]

theorem fraudDomains_putRegistration (r : Registration) (s s' : TableStore)
    (h : putRegistration r s = .ok s') : s'.fraudDomains = s.fraudDomains := by
  unfold putRegistration at h
  split at h <;> cases h
  rfl

theorem fraudDomains_confirmRegistration (o : Owner) (time : Timestamp) (s s' : TableStore)
    (h : confirmRegistration o time s = .ok s') : s'.fraudDomains = s.fraudDomains := by
  unfold confirmRegistration at h
  split at h
  · cases h
  · split at h <;> cases h
    rfl

theorem fraudDomains_createConfirmed (r : Registration) (s s' : TableStore)
    (h : createConfirmed r s = .ok s') : s'.fraudDomains = s.fraudDomains := by
  unfold createConfirmed at h
  split at h
  · cases h
  split at h
  · cases h
  split at h <;> cases h
  rfl

theorem fraudDomains_createReferral (sender receiver : Owner) (time : Timestamp)
    (s s' : TableStore) (h : createReferral sender receiver time s = .ok s') :
    s'.fraudDomains = s.fraudDomains := by
  unfold createReferral at h
  split at h <;> cases h
  rfl

theorem fraudDomains_changeReferral (o : Owner) (move : Referral → Except String Referral)
    (s s' : TableStore) (h : changeReferral o move s = .ok s') :
    s'.fraudDomains = s.fraudDomains := by
  unfold changeReferral at h
  split at h
  · cases h
  · split at h <;> cases h
    rfl

/-! ### Entries -/

/-- **An entry is listed under its host**, unless there is nothing left of it. -/
theorem putFraudDomain_cases (s : TableStore) (domain : String) :
    ((host domain = [] ∨ .putFraudDomain ∈ s.failing) ∧
        ∃ e, Store.putFraudDomain domain s = (.error e, s)) ∨
      host domain ≠ [] ∧ Store.putFraudDomain domain s = (.ok (), { s with
        fraudDomains := s.fraudDomains.insert (asciiLower (String.ofList (host domain))) ()
        writes := s.writes + 1 }) := by
  show (_ ∧ ∃ e, putFraudDomain domain s = _) ∨ _ ∧ putFraudDomain domain s = _
  unfold putFraudDomain
  rw [emailDomain?_at_host]
  by_cases hempty : host domain = []
  · rw [if_pos hempty]
    exact .inl ⟨.inl hempty, _, rfl⟩
  · rw [if_neg hempty]
    dsimp only
    unfold write
    rcases s.read_eq .putFraudDomain (Except.ok { s with
      fraudDomains := s.fraudDomains.insert (asciiLower (String.ofList (host domain))) () }) with
      hread | ⟨hfails, reason, hread⟩
    · rw [hread]
      exact .inr ⟨hempty, rfl⟩
    · rw [hread]
      exact .inl ⟨.inr hfails, _, rfl⟩

theorem preserves_putFraudDomain (key domain : String) :
    Computation.Preserves (fun s : TableStore => key ∈ s.fraudDomains)
      (Store.putFraudDomain domain) := by
  refine .of_snd fun s hs => ?_
  rcases putFraudDomain_cases s domain with ⟨-, e, hput⟩ | ⟨-, hput⟩
  · rwa [hput]
  · rw [hput]
    exact Std.ExtTreeMap.mem_insert.2 (.inr hs)

/-- **Records are written to the denylist nowhere.** -/
theorem recordStable_fraudDomains (P : Std.ExtTreeMap String Unit → Prop) :
    Store.RecordStable fun s : TableStore => P s.fraudDomains where
  putRegistration r := preserves_write (fraudDomains_putRegistration r)
  confirmRegistration o time := preserves_write (fraudDomains_confirmRegistration o time)
  createConfirmed r := preserves_write (fraudDomains_createConfirmed r)
  createReferral sender receiver time :=
    preserves_write (fraudDomains_createReferral sender receiver time)
  installReferral o _ := preserves_write (fraudDomains_changeReferral o _)
  confirmReferral o _ _ _ := preserves_write (fraudDomains_changeReferral o _)

/-- No write takes a key off the denylist. -/
theorem stable_fraudDomains (key : String) :
    Store.Stable fun s : TableStore => key ∈ s.fraudDomains where
  toRecordStable := recordStable_fraudDomains (key ∈ ·)
  putFraudDomain := preserves_putFraudDomain key

instance : ListingStore TableStore where
  listedAs domain := asciiLower (String.ofList (host domain))
  accepts {s t} domain hquiet h := by
    rcases putFraudDomain_cases t domain with ⟨hempty | hfails, -⟩ | ⟨-, hput⟩
    · -- of an entry that some state accepts there is something left
      rcases putFraudDomain_cases s domain with ⟨-, e, hput⟩ | ⟨hhost, -⟩
      · rw [hput] at h
        cases h
      · exact absurd hempty hhost
    · exact absurd hfails hquiet
    · rw [hput]
  denies_put {s s'} domain key h := by
    rcases putFraudDomain_cases s domain with ⟨-, e, hput⟩ | ⟨-, hput⟩
    · cases hput.symm.trans h
    · cases hput.symm.trans h
      show key ∈ s.fraudDomains.insert _ () ↔ _
      rw [Std.ExtTreeMap.mem_insert, Std.compare_eq_iff_eq, or_comm]
      exact or_congr_right eq_comm
  listedAs_ne {s} domain h hempty := by
    rcases putFraudDomain_cases s domain with ⟨-, e, hput⟩ | ⟨hhost, -⟩
    · rw [hput] at h
      cases h
    · exact hhost (asciiLower_ofList_eq_empty.1 hempty)
  sound_put {s} domain hs := by
    rcases putFraudDomain_cases s domain with ⟨-, e, hput⟩ | ⟨-, hput⟩ <;> rw [hput] <;> exact hs
  failing_put s domain := by
    rcases putFraudDomain_cases s domain with ⟨-, e, hput⟩ | ⟨-, hput⟩ <;> rw [hput]
    rfl
  denies_failOn _ _ _ := Iff.rfl
  isFraudDomain_of_quiet hquiet _ :=
    ⟨_, read_of_not_mem hquiet _, Std.ExtTreeMap.contains_iff_mem⟩
  stable_denies := stable_fraudDomains
  recordStable_denies denied := recordStable_fraudDomains fun t => (· ∈ t) = denied

end TableStore

namespace IndexedStore

variable {s : IndexedStore} {P : KeyTable → Prop}

/-! ### Writes of records -/

/-- The denylist is in a table of its own. -/
theorem preserves_change {name : TableName} (hname : name ≠ .fraudDomains)
    (f : KeyTable → Except StoreError KeyTable) :
    Computation.Preserves (fun s : IndexedStore => P s.fraudDomains)
      (change name f) := by
  refine .of_snd fun s hs => ?_
  unfold change
  split
  · cases name with
    | fraudDomains => exact absurd rfl hname
    | _ => exact hs
  · exact hs

theorem preserves_ask {α : Type} (I : IndexedStore → Prop)
    (f : IndexedStore → Except StoreError α) : Computation.Preserves I (ask f) :=
  .of_snd fun _ hs => hs

open Onboarding.Computation.Ensures

theorem preserves_checkCode (I : IndexedStore → Prop) (r : Registration) :
    Computation.Preserves I (checkCode r) := by
  refine bind (preserves_ask I _) fun holder? => ?_
  split
  · exact pure _
  · split
    · exact throw trivial
    · exact pure _

/-- The tables of registrations, of codes and of addresses. -/
theorem preserves_putRegistration (r : Registration) :
    Computation.Preserves (fun s : IndexedStore => P s.fraudDomains)
      (putRegistration r) := by
  have hdrop : Computation.Preserves (fun s : IndexedStore => P s.fraudDomains)
      (dropOldCode r) := by
    refine bind (preserves_ask _ _) fun old? => ?_
    split
    · exact pure _
    · split
      · exact preserves_change (by decide) _
      · exact pure _
  refine bind (preserves_checkCode _ r) fun _ => bind hdrop fun _ =>
    bind (preserves_change (by decide) _) fun _ => ?_
  split
  · exact bind (preserves_change (by decide) _) fun _ => preserves_change (by decide) _
  · exact preserves_change (by decide) _

theorem preserves_confirmRegistration (o : Owner) (time : Timestamp) :
    Computation.Preserves (fun s : IndexedStore => P s.fraudDomains)
      (confirmRegistration o time) := by
  refine bind (preserves_ask _ _) fun r => ?_
  split
  · exact throw trivial
  · exact preserves_putRegistration _

theorem preserves_createConfirmed (r : Registration) :
    Computation.Preserves (fun s : IndexedStore => P s.fraudDomains)
      (createConfirmed r) := by
  unfold createConfirmed
  split
  · exact throw trivial
  refine bind (preserves_ask _ _) fun _ => ?_
  split
  · exact throw trivial
  refine bind (preserves_ask _ _) fun _ => ?_
  split
  · exact throw trivial
  · exact preserves_putRegistration r

/-- The tables of referrals and of their pairs. -/
theorem preserves_createReferral (sender receiver : Owner) (time : Timestamp) :
    Computation.Preserves (fun s : IndexedStore => P s.fraudDomains)
      (createReferral sender receiver time) := by
  refine bind (preserves_ask _ _) fun _ => ?_
  split
  · exact throw trivial
  · exact bind (preserves_change (by decide) _) fun _ => preserves_change (by decide) _

theorem preserves_changeReferral (o : Owner) (move : Referral → Except String Referral) :
    Computation.Preserves (fun s : IndexedStore => P s.fraudDomains)
      (changeReferral o move) := by
  refine bind (preserves_ask _ _) fun f => ?_
  split
  · exact throw trivial
  · exact preserves_change (by decide) _

/-! ### Entries -/

/-- **An entry is listed as it stands**, cut and in small letters, if that can be a key. -/
theorem putFraudDomain_cases (s : IndexedStore) (domain : String) :
    (¬ KeyTable.IsKey (Utf8.bytes (denialKey domain)) ∧
        ∃ e, Store.putFraudDomain domain s = (.error e, s)) ∨
      KeyTable.IsKey (Utf8.bytes (denialKey domain)) ∧ Store.putFraudDomain domain s = (.ok (),
        { s with fraudDomains := s.fraudDomains.insert (Utf8.bytes (denialKey domain)) [] }) := by
  show (_ ∧ ∃ e, put .fraudDomains (Utf8.bytes (denialKey domain)) [] s = _) ∨
    _ ∧ put .fraudDomains (Utf8.bytes (denialKey domain)) [] s = _
  by_cases hkey : KeyTable.IsKey (Utf8.bytes (denialKey domain))
  · exact .inr ⟨hkey, put_eq _ hkey _ _⟩
  · refine .inl ⟨hkey, ?_⟩
    rcases hput : put .fraudDomains (Utf8.bytes (denialKey domain)) [] s with ⟨_ | _, s'⟩
    · unfold put change at hput
      split at hput <;> cases hput
      exact ⟨_, rfl⟩
    · exact absurd (isKey_of_put hput) hkey

theorem mem_insert_key {t : KeyTable} {k k' : Key} {v : List UInt8} :
    k ∈ t.insert k' v ↔ k ∈ t ∨ k = k' := by
  rw [Std.ExtTreeMap.mem_insert, Std.compare_eq_iff_eq, or_comm]
  exact or_congr_right eq_comm

theorem preserves_putFraudDomain (key domain : String) :
    Computation.Preserves (fun s : IndexedStore => Utf8.bytes key ∈ s.fraudDomains)
      (Store.putFraudDomain domain) := by
  refine .of_snd fun s hs => ?_
  rcases putFraudDomain_cases s domain with ⟨-, e, hput⟩ | ⟨-, hput⟩
  · rw [hput]
    exact hs
  · rw [hput]
    exact mem_insert_key.2 (.inl hs)

/-- **Records are in other tables than the denylist.** -/
theorem recordStable_fraudDomains (P : KeyTable → Prop) :
    Store.RecordStable fun s : IndexedStore => P s.fraudDomains where
  putRegistration := preserves_putRegistration
  confirmRegistration := preserves_confirmRegistration
  createConfirmed := preserves_createConfirmed
  createReferral := preserves_createReferral
  installReferral o _ := preserves_changeReferral o _
  confirmReferral o _ _ _ := preserves_changeReferral o _

/-- No write takes a key off the denylist. -/
theorem stable_fraudDomains (key : String) :
    Store.Stable fun s : IndexedStore => Utf8.bytes key ∈ s.fraudDomains where
  toRecordStable := recordStable_fraudDomains (Utf8.bytes key ∈ ·)
  putFraudDomain := preserves_putFraudDomain key

instance : ListingStore IndexedStore where
  listedAs := denialKey
  accepts {s t} domain _ h := by
    rcases putFraudDomain_cases t domain with ⟨hkey, -⟩ | ⟨-, hput⟩
    · rcases putFraudDomain_cases s domain with ⟨-, e, hput⟩ | ⟨hkey', -⟩
      · rw [hput] at h
        cases h
      · exact absurd hkey' hkey
    · rw [hput]
  denies_put {s s'} domain key h := by
    rcases putFraudDomain_cases s domain with ⟨-, e, hput⟩ | ⟨-, hput⟩
    · cases hput.symm.trans h
    · cases hput.symm.trans h
      exact mem_insert_key.trans (or_congr_right Utf8.bytes_inj)
  listedAs_ne {s} domain h hempty := by
    rcases putFraudDomain_cases s domain with ⟨-, e, hput⟩ | ⟨hkey, -⟩
    · rw [hput] at h
      cases h
    · exact hkey.1 (Utf8.bytes_eq_nil.2 hempty)
  sound_put {s} domain hs := by
    rcases putFraudDomain_cases s domain with ⟨-, e, hput⟩ | ⟨-, hput⟩ <;> rw [hput]
    · exact hs
    · exact Sound.withDomains hs _
  failing_put s domain := by
    rcases putFraudDomain_cases s domain with ⟨-, e, hput⟩ | ⟨-, hput⟩ <;> rw [hput]
    rfl
  denies_failOn _ _ _ := Iff.rfl
  isFraudDomain_of_quiet _ hcs := DenyingStore.isFraudDomain rfl hcs
  stable_denies := stable_fraudDomains
  recordStable_denies denied := recordStable_fraudDomains fun t => (Utf8.bytes · ∈ t) = denied

end IndexedStore

instance (kind : StoreKind) : ListingStore kind.State :=
  match kind with
  | .table => inferInstanceAs (ListingStore TableStore)
  | .indexed => inferInstanceAs (ListingStore IndexedStore)

/-! ## Two keys of one entry -/

open ListingStore (listedAs)

variable {kind : StoreKind} {domain : String}

/-- **The two stores agree on the key of an entry** without an `@`. -/
theorem listedAs_eq_host (h : kind = .indexed → '@' ∉ domain.toList) :
    listedAs (σ := kind.State) domain = asciiLower (String.ofList (host domain)) := by
  cases kind with
  | table => rfl
  | indexed =>
    show denialKey domain = _
    rw [denialKey, host_of_not_mem (h rfl)]

/-- The store of tables leaves an `@` in the key. -/
theorem at_not_mem_of_listedAs (h : '@' ∉ (listedAs (σ := kind.State) domain).toList)
    (hkind : kind = .indexed) : '@' ∉ domain.toList := by
  subst hkind
  intro hat
  refine h ?_
  show '@' ∈ (denialKey domain).toList
  rw [denialKey, asciiLower, String.toList_ofList, String.toList_ofList]
  exact List.mem_map.2 ⟨'@', mem_trimDomain hat (by decide) (by decide), rfl⟩

/-! ## Looking up -/

/-- A domain goes on above its first dot. -/
theorem suffix_of_parentDomain? {cs above : List Char} (h : parentDomain? cs = some above) :
    '.' :: above <:+ cs := by
  unfold parentDomain? splitFirst? at h
  split at h
  · rename_i hmem
    obtain ⟨front, back, rfl, hfront⟩ := List.eq_append_cons_of_mem hmem
    have hdrop : (front ++ '.' :: back).dropWhile (· ≠ '.') = '.' :: back := by
      rw [List.dropWhile_append_of_pos fun c hc => ?_]
      · exact List.dropWhile_cons_of_neg (by simp)
      · exact decide_eq_true fun hdot => hfront (hdot ▸ hc)
    cases h
    rw [hdrop]
    exact List.suffix_append _ _
  · cases h

namespace Store

variable {σ : Type} [Store σ] {s : σ}

/-- A domain is refused for itself, or for an end of it that has fewer dots. -/
theorem hasFraudDomain_eq_true {cs : List Char} (hcs : IsPlainDomain cs)
    (h : hasFraudDomain s cs = .ok true) :
    ∃ above, above <:+ cs ∧ IsPlainDomain above ∧
      isFraudDomain s (String.ofList above) = .ok true ∧
      (above = cs ∨ above.count '.' < cs.count '.') := by
  induction hn : cs.length using Nat.strongRecOn generalizing cs with
  | ind n ih =>
    rw [hasFraudDomain_eq] at h
    rcases hlisted : isFraudDomain s (String.ofList cs) with e | _ | _
    · rw [hlisted] at h
      cases h
    · rw [hlisted] at h
      dsimp only at h
      split at h
      · cases h
      · rename_i parent hparent
        split at h
        · rename_i hdot
          have hshort := length_parentDomain hparent
          obtain ⟨above, hsuffix, hplain, htrue, hdots⟩ :=
            ih _ (hn ▸ hshort) (hcs.parent hparent hdot) h rfl
          have hparents := suffix_of_parentDomain? hparent
          refine ⟨above, hsuffix.trans ((List.suffix_cons _ _).trans hparents), hplain, htrue,
            .inr ?_⟩
          have hle := hsuffix.sublist.count_le '.'
          have hlt := hparents.sublist.count_le '.'
          rw [List.count_cons_self] at hlt
          omega
        · cases h
    · exact ⟨cs, List.suffix_refl cs, hcs, hlisted, .inl rfl⟩

end Store

section Refusing

variable {σ : Type} [Store σ] [LawfulStore σ] [ListingStore σ] {s : σ} {email asked : String}

open DenyingStore (Denies)

/-- An email whose domain is on the denylist is refused. -/
theorem isFraudEmail_of_denies (hquiet : .isFraudDomain ∉ failing s)
    (hemail : ∀ c ∈ email.toList, isBlank c = false) (hasked : emailDomain? email = some asked)
    (hdenies : Denies s asked) : Store.isFraudEmail s email = .ok true := by
  have hplain := isPlainDomain_of_emailDomain? hemail hasked
  obtain ⟨listed, hanswer, hlisted⟩ := ListingStore.isFraudDomain_of_quiet hquiet hplain
  rw [asciiLower_ofList (toLower_of_emailDomain? hasked), String.ofList_toList] at hlisted
  rw [hlisted.2 hdenies] at hanswer
  unfold Store.isFraudEmail
  rw [hasked]
  dsimp only
  rw [Store.hasFraudDomain_eq, hanswer]

/-- Where one key is on the denylist, an email is refused for it: it is the domain of the
email, or the domain ends in it and has more dots. -/
theorem suffix_of_isFraudEmail (hquiet : .isFraudDomain ∉ failing s) {key : String}
    (honly : ∀ k, Denies s k → k = key) (hemail : ∀ c ∈ email.toList, isBlank c = false)
    (h : Store.isFraudEmail s email = .ok true) :
    ∃ asked, emailDomain? email = some asked ∧ key.toList <:+ asked.toList ∧
      (key = asked ∨ key.toList.count '.' < asked.toList.count '.') := by
  unfold Store.isFraudEmail at h
  split at h
  · cases h
  rename_i asked hasked
  have hplain := isPlainDomain_of_emailDomain? hemail hasked
  obtain ⟨above, hsuffix, habove, htrue, hdots⟩ := Store.hasFraudDomain_eq_true hplain h
  obtain ⟨listed, hanswer, hlisted⟩ := ListingStore.isFraudDomain_of_quiet hquiet habove
  have hsmall : asciiLower (String.ofList above) = String.ofList above :=
    asciiLower_ofList fun c hc => toLower_of_emailDomain? hasked c (hsuffix.subset hc)
  rw [hsmall] at hlisted
  obtain rfl := honly _ (hlisted.1 (Except.ok.inj (hanswer.symm.trans htrue)))
  rw [String.toList_ofList]
  refine ⟨asked, hasked, hsuffix, hdots.imp_left fun heq => ?_⟩
  rw [heq, String.ofList_toList]

end Refusing

end Onboarding
