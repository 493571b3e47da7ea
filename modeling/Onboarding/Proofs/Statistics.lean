import Mathlib.Algebra.BigOperators.Group.List.Lemmas
import Mathlib.Algebra.GroupWithZero.Nat
import Mathlib.Data.List.Induction
import Onboarding.Proofs.Counts
import Onboarding.Proofs.Service.Run
import Onboarding.Proofs.Store.Writes
import Onboarding.Service.Report
/-!
# Statistics — confirmed registrations, each counted on its day

The service reports how many registrations are confirmed, and how many were on each day.
Both are counted over one list, the second in a map from days to numbers. A tally knows
of every item how often it occurs (`getElem?_tally`), so the days partition the list:
`RegistrationStats.Partitions` says what that comes to, for lists of any length and any
timestamps, and nothing in it depends on the order of the list.

The list is that of a store. Of its state no more is asked than that registrations stand
under their owners (`StoreKind.Stocked`), as they do after all writes.
-/

namespace Onboarding

/-! ## A tally -/

section Tally

variable {κ : Type} [Ord κ] [Std.TransOrd κ]

theorem tally_concat (items : List κ) (k : κ) :
    tally (items ++ [k]) = (tally items).alter k fun n => some (n.getD 0 + 1) :=
  List.foldl_concat ..

variable [Std.LawfulEqOrd κ] [DecidableEq κ]

/-- An item is tallied if it occurs, with how often it does. -/
theorem getElem?_tally (items : List κ) (k : κ) :
    (tally items)[k]? = if k ∈ items then some (items.count k) else none := by
  induction items using List.reverseRecOn with
  | nil => simp [tally]
  | append_singleton items last ih =>
    rw [tally_concat, Std.ExtTreeMap.getElem?_alter]
    simp only [Std.compare_eq_iff_eq]
    by_cases hlast : last = k
    · subst hlast
      rw [if_pos rfl, ih]
      by_cases hmem : last ∈ items
      · simp [hmem]
      · simp [hmem, List.count_eq_zero.2 hmem]
    · have hmem : k ∈ items ++ [last] ↔ k ∈ items := by simp [Ne.symm hlast]
      rw [if_neg hlast, ih]
      simp [hmem, hlast]

theorem mem_toList_tally {items : List κ} {k : κ} {n : Nat} :
    (k, n) ∈ (tally items).toList ↔ k ∈ items ∧ n = items.count k := by
  rw [Std.ExtTreeMap.mem_toList_iff_getElem?_eq_some, getElem?_tally]
  by_cases hmem : k ∈ items
  · simp [hmem, eq_comm]
  · simp [hmem]

/-- The numbers of a tally add up to the length of its list. -/
theorem sum_tally (items : List κ) :
    ((tally items).toList.map (·.2)).sum = items.length := by
  have hkeys : ((tally items).toList.map (·.1)).Perm items.dedup := by
    refine (List.perm_ext_iff_of_nodup (KeyedMap.nodup_keys _) items.nodup_dedup).2 fun k => ?_
    rw [List.mem_dedup, List.mem_map]
    constructor
    · rintro ⟨⟨k, n⟩, he, rfl⟩
      exact (mem_toList_tally.1 he).1
    · intro hmem
      exact ⟨(k, items.count k), mem_toList_tally.2 ⟨hmem, rfl⟩, rfl⟩
  have hcounts : (tally items).toList.map (·.2) =
      ((tally items).toList.map (·.1)).map fun k => items.count k := by
    rw [List.map_map]
    exact List.map_congr_left fun e he => (mem_toList_tally.1 he).2
  calc ((tally items).toList.map (·.2)).sum
      = (((tally items).toList.map (·.1)).map fun k => items.count k).sum := by rw [hcounts]
    _ = (items.dedup.map fun k => items.count k).sum := (hkeys.map _).sum_eq
    _ = items.length := List.sum_map_count_dedup_eq_length items

end Tally

/-! ## Days -/

/-- The registration was confirmed in the day that starts then, counted without bound. -/
def Registration.confirmedOn (day : Timestamp) (r : Registration) : Bool :=
  r.confirmedAt.any fun t => day.seconds.toNat ≤ t.seconds.toNat &&
    t.seconds.toNat < day.seconds.toNat + secondsPerDay

theorem Registration.confirmedOn_iff {day : Timestamp} {r : Registration} :
    r.confirmedOn day = true ↔ ∃ t, r.confirmedAt = some t ∧
      day.seconds.toNat ≤ t.seconds.toNat ∧
      t.seconds.toNat < day.seconds.toNat + secondsPerDay := by
  unfold confirmedOn
  cases r.confirmedAt <;> simp

/-- A day starts at a multiple of its length. -/
theorem Timestamp.dvd_startOfDay (t : Timestamp) : secondsPerDay ∣ t.startOfDay.seconds.toNat := by
  rw [toNat_startOfDay]
  exact Nat.dvd_mul_left ..

/-- A timestamp falls in one day only. -/
theorem Timestamp.startOfDay_eq_iff {t day : Timestamp} (h : secondsPerDay ∣ day.seconds.toNat) :
    t.startOfDay = day ↔ day.seconds.toNat ≤ t.seconds.toNat ∧
      t.seconds.toNat < day.seconds.toNat + secondsPerDay := by
  have heq : t.startOfDay = day ↔ t.startOfDay.seconds.toNat = day.seconds.toNat := by
    rw [UInt64.toNat_inj]
    exact ⟨congrArg _, congrArg Timestamp.mk⟩
  obtain ⟨n, hn⟩ := h
  rw [heq, toNat_startOfDay, hn]
  unfold secondsPerDay
  omega

/-- The days on which registrations were confirmed, one for each. -/
def confirmationDays (rs : List Registration) : List Timestamp :=
  rs.filterMap fun r => r.confirmedAt.map Timestamp.startOfDay

section Days

variable {rs rs' : List Registration} {d : DailyCount}

theorem dvd_of_mem_confirmationDays {day : Timestamp} (h : day ∈ confirmationDays rs) :
    secondsPerDay ∣ day.seconds.toNat := by
  obtain ⟨r, -, hr⟩ := List.mem_filterMap.1 h
  obtain ⟨t, -, rfl⟩ := Option.map_eq_some_iff.1 hr
  exact t.dvd_startOfDay

theorem count_confirmationDays (rs : List Registration) {day : Timestamp}
    (h : secondsPerDay ∣ day.seconds.toNat) :
    (confirmationDays rs).count day = rs.countP (·.confirmedOn day) := by
  unfold confirmationDays
  rw [List.count_eq_countP, List.countP_filterMap]
  refine List.countP_congr fun r _ => ?_
  unfold Registration.confirmedOn
  cases r.confirmedAt with
  | none => simp
  | some t => simp [Timestamp.startOfDay_eq_iff h]

theorem length_confirmationDays (h : ∀ r ∈ rs, r.isConfirmed = true) :
    (confirmationDays rs).length = rs.length := by
  unfold confirmationDays
  rw [List.filterMap_length_eq_length]
  intro r hr
  simpa [Registration.isConfirmed] using h r hr

/-- A day is listed with the number of registrations confirmed on it, if there is one. -/
theorem mem_countByDay :
    d ∈ countByDay rs ↔ d.day ∈ confirmationDays rs ∧
      d.count = rs.countP (·.confirmedOn d.day) := by
  show d ∈ (tally (confirmationDays rs)).toList.map _ ↔ _
  rw [List.mem_map]
  constructor
  · rintro ⟨⟨day, n⟩, he, rfl⟩
    obtain ⟨hmem, hn⟩ := mem_toList_tally.1 he
    exact ⟨hmem, hn.trans (count_confirmationDays rs (dvd_of_mem_confirmationDays hmem))⟩
  · rintro ⟨hmem, hn⟩
    refine ⟨(d.day, d.count), mem_toList_tally.2 ⟨hmem, ?_⟩, rfl⟩
    rw [hn, count_confirmationDays rs (dvd_of_mem_confirmationDays hmem)]

end Days

/-! ## The statistics of a list -/

/-- The statistics partition these registrations by days. -/
structure RegistrationStats.Partitions (stats : RegistrationStats) (rs : List Registration) :
    Prop where
  total : stats.total = rs.length
  sum : stats.total = (stats.byDay.map (·.count)).sum
  increasing : stats.byDay.Pairwise fun d d' => d.day.seconds.toNat < d'.day.seconds.toNat
  days : ∀ d ∈ stats.byDay, secondsPerDay ∣ d.day.seconds.toNat
  counts : ∀ d ∈ stats.byDay, 1 ≤ d.count ∧ d.count = rs.countP (·.confirmedOn d.day)
  covers : ∀ r ∈ rs, ∃ d ∈ stats.byDay, r.confirmedOn d.day = true

/-- **What is counted of confirmed registrations partitions them.** -/
theorem partitions_countByDay {rs : List Registration} (h : ∀ r ∈ rs, r.isConfirmed = true) :
    RegistrationStats.Partitions ⟨rs.length, countByDay rs⟩ rs where
  total := rfl
  sum := by
    show rs.length = (((tally (confirmationDays rs)).toList.map _).map DailyCount.count).sum
    rw [List.map_map, ← length_confirmationDays h, ← sum_tally]
    rfl
  increasing := by
    refine List.pairwise_map.2 (Std.ExtTreeMap.ordered_keys_toList.imp fun {e e'} hlt => ?_)
    have hlt : e.1.seconds < e'.1.seconds := Std.compare_eq_lt.1 hlt
    exact UInt64.lt_iff_toNat_lt.1 hlt
  days d hd := dvd_of_mem_confirmationDays (mem_countByDay.1 hd).1
  counts d hd := by
    obtain ⟨hmem, hcount⟩ := mem_countByDay.1 hd
    have hpos : 0 < (confirmationDays rs).count d.day := List.count_pos_iff.2 hmem
    rw [count_confirmationDays rs (dvd_of_mem_confirmationDays hmem), ← hcount] at hpos
    exact ⟨hpos, hcount⟩
  covers r hr := by
    obtain ⟨t, ht⟩ := Option.isSome_iff_exists.1 (h r hr)
    have hmem : t.startOfDay ∈ confirmationDays rs :=
      List.mem_filterMap.2 ⟨r, hr, by rw [ht]; rfl⟩
    have hon : r.confirmedOn t.startOfDay = true :=
      Registration.confirmedOn_iff.2 ⟨t, ht, (t.startOfDay_eq_iff t.dvd_startOfDay).1 rfl⟩
    exact ⟨⟨t.startOfDay, rs.countP (·.confirmedOn t.startOfDay)⟩,
      mem_countByDay.2 ⟨hmem, rfl⟩, hon⟩

/-! ## The statistics of a store -/

/-- The report counts what the store lists. -/
theorem registrationStats_eq {σ : Type} [Store σ] {w : World σ} {rs : List Registration}
    (h : Store.confirmedRegistrations w.store = .ok rs) :
    registrationStats w = (.ok ⟨rs.length, countByDay rs⟩, w) := by
  unfold registrationStats
  have htotal : ServiceM.read Store.confirmedTotal w = (.ok rs.length, w) := by
    unfold ServiceM.read Store.confirmedTotal
    rw [h]
    rfl
  have hdays : ServiceM.read Store.confirmedByDay w = (.ok (countByDay rs), w) := by
    unfold ServiceM.read Store.confirmedByDay
    rw [h]
    rfl
  rw [Computation.bind_of_ok htotal, Computation.bind_of_ok hdays]
  rfl

namespace StoreKind

open StoreView

/-- The registrations of a state stand under their owners, and bytes that stand for
registrations are theirs. Nothing is asked of what the registrations say, of referrals
or of any index. -/
def Stocked : (kind : StoreKind) → kind.State → Prop
  | .table, s => (contents (σ := TableStore) s).Keyed
  | .indexed, s => IndexedStore.Records Registration.schema
      (fun r => IndexedStore.ownerKey r.owner) Registration.schema.Fits
      (IndexedStore.registrations s)

variable {kind : StoreKind} {s : kind.State}

theorem stocked_of_kept (hs : WritableStore.Kept s) : kind.Stocked s := by
  cases kind with
  | table =>
    have hsteady : TableStore.Steady s := hs
    exact hsteady.keyed
  | indexed =>
    have hlisted : IndexedStore.Listed s := hs
    exact hlisted.registrations.mono fun _ hr => hr.fits

/-- Every sequence of writes leaves a state that is stocked. -/
theorem stocked_written (kind : StoreKind) (ws : List FittingWrite) :
    kind.Stocked (Store.written kind.State ws) :=
  stocked_of_kept (kept_written ws)

/-- So does every run of the service. -/
theorem stocked_of_sound (hs : Sound s) : kind.Stocked s := by
  cases kind with
  | table => exact TableStore.keyed_of_sound hs
  | indexed =>
    have hsound : IndexedStore.Sound s := hs
    exact hsound.registrations.mono fun _ hr => hr.fits

/-- **Every confirmed registration is listed, once.** -/
theorem listing_of_stocked (hs : kind.Stocked s) :
    Listing (fun r => (contents s).Holds r ∧ r.isConfirmed = true) (.iterConfirmed ∈ failing s)
      (Store.confirmedRegistrations s) := by
  cases kind with
  | table =>
    have hkeyed : (contents (σ := TableStore) s).Keyed := hs
    have hnodup : (TableStore.allRegistrations s).Nodup :=
      KeyedMap.nodup_map_toList Registration.owner fun _ _ h => hkeyed h
    refine TableStore.listing_read (hnodup.filter _) fun r => ?_
    rw [List.mem_filter, TableStore.mem_allRegistrations hkeyed]
    rfl
  | indexed =>
    obtain ⟨rs, hrs, hnodup, hmem⟩ :=
      IndexedStore.Records.decodeAll (show IndexedStore.Records _ _ _ _ from hs) fun _ h => h
    show Listing _ _ (IndexedStore.confirmedRegistrations s)
    unfold IndexedStore.confirmedRegistrations
    rw [hrs]
    refine .listed (hnodup.filter _) fun r => ?_
    rw [List.mem_filter, hmem]
    rfl

end StoreKind

open StoreView

/-- **The statistics partition the confirmed registrations.** Whatever a store of either
kind holds, the report succeeds and changes nothing. It counts every registration that is
held and confirmed, once; the counts of the days add up to the total; the days increase,
are multiples of 86400, and each is listed with the number of those that were confirmed
in it, of which there is one; and every registration falls into a listed day. Any store
that lists the same registrations in any other order reports the same. -/
theorem partitions_registrationStats (kind : StoreKind) (w : World kind.State)
    (hstocked : kind.Stocked w.store) (hquiet : .iterConfirmed ∉ failing w.store) :
    ∃ (rs : List Registration) (stats : RegistrationStats),
      rs.Nodup ∧ (∀ r, r ∈ rs ↔ (contents w.store).Holds r ∧ r.isConfirmed = true) ∧
      registrationStats w = (.ok stats, w) ∧ stats.Partitions rs ∧
      ∀ {σ : Type} [Store σ] (v : World σ) (rs' : List Registration), rs'.Perm rs →
        Store.confirmedRegistrations v.store = .ok rs' → registrationStats v = (.ok stats, v) := by
  obtain ⟨rs, hrs, hnodup, hmem⟩ := (StoreKind.listing_of_stocked hstocked).eq_ok hquiet
  have hconfirmed : ∀ r ∈ rs, r.isConfirmed = true := fun r hr => ((hmem r).1 hr).2
  refine ⟨rs, ⟨rs.length, countByDay rs⟩, hnodup, hmem, registrationStats_eq hrs,
    partitions_countByDay hconfirmed, fun v rs' hperm hrs' => ?_⟩
  rw [registrationStats_eq hrs', hperm.length_eq, countByDay_perm hperm]

namespace Counted

/-- A registration of an owner, confirmed at some time. -/
def registration (owner : Owner) (code : String) (confirmedAt : UInt64) : Registration :=
  ⟨owner, "", ⟨owner.text⟩, "0000", ⟨100⟩, some ⟨confirmedAt⟩, code, none⟩

/-- The last second of a day. -/
def first : Registration := registration Sample.first "cafe0001" 172799

/-- The first second of the next one. -/
def second : Registration := registration Sample.second "cafe0002" 172800

theorem fits_first : (RegistrationWrite.create first).Fits := by
  rintro _ ⟨⟩
  decide +kernel

theorem fits_second : (RegistrationWrite.create second).Fits := by
  rintro _ ⟨⟩
  decide +kernel

/-- A store that holds both. -/
def world : World StoreKind.indexed.State :=
  { World.start ⟨200000⟩ with
    store := Store.written StoreKind.indexed.State [⟨_, fits_second⟩, ⟨_, fits_first⟩] }

end Counted

open Counted in
theorem partitions_registrationStats_midnight :
    StoreKind.Stocked .indexed world.store ∧ .iterConfirmed ∉ failing world.store ∧
      (registrationStats world).1 = .ok ⟨2, [⟨⟨86400⟩, 1⟩, ⟨⟨172800⟩, 1⟩]⟩ ∧
      ∃ rs, rs.Nodup ∧ (∀ r, r ∈ rs ↔ (contents world.store).Holds r ∧ r.isConfirmed = true) ∧
        RegistrationStats.Partitions ⟨2, [⟨⟨86400⟩, 1⟩, ⟨⟨172800⟩, 1⟩]⟩ rs := by
  have hstocked : StoreKind.Stocked .indexed world.store := StoreKind.stocked_written .indexed _
  have hquiet : .iterConfirmed ∉ failing world.store := List.not_mem_nil
  have hstats : (registrationStats world).1 = .ok ⟨2, [⟨⟨86400⟩, 1⟩, ⟨⟨172800⟩, 1⟩]⟩ := by
    decide +kernel
  obtain ⟨rs, stats, hnodup, hmem, hrun, hpartitions, -⟩ :=
    partitions_registrationStats .indexed world hstocked hquiet
  rw [hrun] at hstats
  obtain rfl := Except.ok.inj hstats
  exact ⟨hstocked, hquiet, by rw [hrun], rs, hnodup, hmem, hpartitions⟩

end Onboarding
