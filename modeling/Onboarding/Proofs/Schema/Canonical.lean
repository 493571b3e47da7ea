import Onboarding.Proofs.Schema.Binary
import Onboarding.Referral
import Onboarding.Registration
import Onboarding.Store.Indexed
/-!
# Canonical records — a value has one spelling in bytes, and no spelling begins another

`Schema.decode_encode` reads a value off the front of its bytes. This file proves the
converse: whatever bytes a value is read from begin with the bytes of that value, and the
value fits them (`Schema.spelled_of_decode`). It goes by recursion on the schema, one lemma
for each number, text or list in front. Both directions together make the stored records
a canonical and prefix-free format (`records_canonical`).
-/

namespace Onboarding

/-- A read took the bytes of a value that fits off the front. -/
def Schema.Spelled {α : Type} (s : Schema α) (bs : List UInt8) (a : α) (rest : List UInt8) :
    Prop :=
  s.Fits a ∧ bs = s.encode a ++ rest

/-- The same for the members of a record. -/
def Fields.Spelled {α : Type} (fs : Fields α) (bs : List UInt8) (a : α) (rest : List UInt8) :
    Prop :=
  fs.Fits a ∧ bs = fs.encode a ++ rest

namespace Schema

variable {bs rest : List UInt8}

/-- A number that is read is written in the bytes it was read from. -/
theorem spelled_of_takeNat {k n : Nat} (h : takeNat k bs = .ok (n, rest)) :
    n < Nat.pow 256 k ∧ bs = leBytes k n ++ rest := by
  unfold takeNat at h
  split at h
  · cases h
  rename_i hlength
  cases h
  have htake : (bs.take k).length = k := List.length_take_of_le (Nat.not_lt.1 hlength)
  have hbound := leNat_lt (bs.take k)
  have hbytes := leBytes_leNat (bs.take k)
  rw [htake] at hbound hbytes
  rw [hbytes, List.take_append_drop]
  exact ⟨hbound, rfl⟩

/-- A text that is read is written in the bytes it was read from. -/
theorem spelled_of_takeText {s : String} (h : takeText bs = .ok (s, rest)) :
    byteLength s < UInt64.size ∧ bs = leBytes 8 (byteLength s) ++ Utf8.bytes s ++ rest := by
  unfold takeText at h
  split at h
  · cases h
  rename_i n r hn
  obtain ⟨hbound, rfl⟩ := spelled_of_takeNat hn
  split at h
  · cases h
  rename_i hlength
  split at h
  · cases h
  rename_i text htext
  cases h
  have hbytes : Utf8.bytes s = r.take n := Utf8.text_eq_ok_iff.1 htext
  have hn : byteLength s = n := by
    rw [byteLength, hbytes, List.length_take_of_le (Nat.not_lt.1 hlength)]
  refine ⟨hn ▸ hbound, ?_⟩
  rw [hn, hbytes, List.append_assoc, List.take_append_drop]

/-- Items that are read one after the other are written one after the other. -/
theorem spelled_of_takeMany {α : Type} {item : Schema α}
    (hitem : ∀ {bs a rest}, item.decode bs = .ok (a, rest) → item.Spelled bs a rest) {n : Nat}
    {as : List α} (h : takeMany item.decode n bs = .ok (as, rest)) :
    as.length = n ∧ (∀ a ∈ as, item.Fits a) ∧ bs = as.flatMap item.encode ++ rest := by
  induction n generalizing bs as with
  | zero =>
    cases h
    exact ⟨rfl, nofun, rfl⟩
  | succ n ih =>
    unfold takeMany at h
    split at h
    · cases h
    rename_i a r ha
    split at h
    · cases h
    rename_i as' r' has
    cases h
    obtain ⟨hfits, rfl⟩ := hitem ha
    obtain ⟨rfl, hall, rfl⟩ := ih has
    refine ⟨rfl, List.forall_mem_cons.2 ⟨hfits, hall⟩, ?_⟩
    rw [List.flatMap_cons, List.append_assoc]

end Schema

mutual

/-- **What a value was read from begins with the bytes of the value.** -/
theorem Schema.spelled_of_decode : {α : Type} → (s : Schema α) → (bs : List UInt8) → (a : α) →
    (rest : List UInt8) → s.decode bs = .ok (a, rest) → s.Spelled bs a rest
  | _, .word, bs, n, rest, h => by
    unfold Schema.decode at h
    obtain ⟨⟨m, r⟩, hm, heq⟩ := map_eq_ok h
    cases heq
    obtain ⟨hbound, rfl⟩ := Schema.spelled_of_takeNat hm
    have hword : (UInt64.ofNat m).toNat = m := UInt64.toNat_ofNat_of_lt' hbound
    refine ⟨trivial, ?_⟩
    rw [Schema.encode, hword]
  | _, .count, bs, n, rest, h => by
    unfold Schema.decode at h
    exact Schema.spelled_of_takeNat h
  | _, .text, bs, s, rest, h => by
    unfold Schema.decode at h
    exact Schema.spelled_of_takeText h
  | _, .choice names, bs, i, rest, h => by
    unfold Schema.decode at h
    split at h
    · cases h
    rename_i n r hn
    obtain ⟨hbound, rfl⟩ := Schema.spelled_of_takeNat hn
    split at h
    · cases h
      exact ⟨hbound, rfl⟩
    · cases h
  | _, .option item, bs, a?, rest, h => by
    unfold Schema.decode at h
    split at h
    · cases h
    rename_i tag r
    split at h
    · rename_i htag
      cases h
      rw [htag]
      exact ⟨trivial, rfl⟩
    split at h
    · rename_i htag
      obtain ⟨⟨a, r'⟩, ha, heq⟩ := map_eq_ok h
      cases heq
      obtain ⟨hfits, rfl⟩ := Schema.spelled_of_decode item r a rest ha
      rw [htag]
      exact ⟨hfits, rfl⟩
    · cases h
  | _, .list item, bs, as, rest, h => by
    unfold Schema.decode at h
    split at h
    · cases h
    rename_i n r hn
    obtain ⟨hbound, rfl⟩ := Schema.spelled_of_takeNat hn
    have hitem := fun {bs a rest} => Schema.spelled_of_decode item bs a rest
    obtain ⟨rfl, hall, rfl⟩ := Schema.spelled_of_takeMany hitem h
    refine ⟨⟨hbound, hall⟩, ?_⟩
    rw [Schema.encode, List.append_assoc]
  | _, .record fields, bs, a, rest, h => by
    unfold Schema.decode at h
    exact Fields.spelled_of_decode fields bs a rest h
  | _, .via base make get get_make _, bs, b, rest, h => by
    unfold Schema.decode at h
    obtain ⟨⟨a, r⟩, ha, heq⟩ := map_eq_ok h
    cases heq
    have hbase := Schema.spelled_of_decode base bs a rest ha
    rw [← get_make a] at hbase
    exact hbase

/-- The same for the members of a record. -/
theorem Fields.spelled_of_decode : {α : Type} → (fs : Fields α) → (bs : List UInt8) → (a : α) →
    (rest : List UInt8) → fs.decode bs = .ok (a, rest) → fs.Spelled bs a rest
  | _, .done, bs, (), rest, h => by
    unfold Fields.decode at h
    cases h
    exact ⟨trivial, rfl⟩
  | _, .field _ item _ others, bs, (a, b), rest, h => by
    unfold Fields.decode at h
    split at h
    · cases h
    rename_i a' r ha
    obtain ⟨⟨b', r'⟩, hb, heq⟩ := map_eq_ok h
    cases heq
    obtain ⟨hfits, rfl⟩ := Schema.spelled_of_decode item bs a r ha
    obtain ⟨hothers, rfl⟩ := Fields.spelled_of_decode others r b rest hb
    refine ⟨⟨hfits, hothers⟩, ?_⟩
    rw [Fields.encode, List.append_assoc]

end

/-! ## The records of a store -/

/-- **A value is read exactly from what begins with its bytes.** -/
theorem Schema.read_eq_ok_iff {α : Type} (s : Schema α) {bs : List UInt8} {a : α} :
    s.read bs = .ok a ↔ s.Fits a ∧ s.encode a <+: bs := by
  unfold Schema.read
  constructor
  · intro h
    obtain ⟨⟨a', rest⟩, hread, rfl⟩ := map_eq_ok h
    obtain ⟨hfits, rfl⟩ := s.spelled_of_decode bs a' rest hread
    exact ⟨hfits, List.prefix_append _ _⟩
  · rintro ⟨hfits, rest, rfl⟩
    rw [s.decode_encode a hfits rest]
    rfl

namespace IndexedStore

variable {α : Type} {s : Schema α} {a b : α} {bs : List UInt8}

/-- What cannot be read is answered with a reason. -/
theorem decode_cases (s : Schema α) (bs : List UInt8) :
    (∃ a, decode s bs = .ok a) ∨ ∃ reason, decode s bs = .error (.serialization reason) := by
  unfold decode
  cases s.read bs with
  | ok a => exact .inl ⟨a, rfl⟩
  | error f => exact .inr ⟨_, rfl⟩

theorem decode_eq_ok_iff : decode s bs = .ok a ↔ s.Fits a ∧ s.encode a <+: bs := by
  rw [← s.read_eq_ok_iff]
  unfold decode
  cases s.read bs with
  | ok a' => exact ⟨fun h => congrArg _ (Except.ok.inj h), fun h => congrArg _ (Except.ok.inj h)⟩
  | error f => exact ⟨nofun, nofun⟩

/-- No value's bytes begin another's. -/
theorem eq_of_encode_prefix (ha : s.Fits a) (hb : s.Fits b) (h : s.encode a <+: s.encode b) :
    a = b := by
  have hshort : decode s (s.encode b) = .ok a := decode_eq_ok_iff.2 ⟨ha, h⟩
  have hlong : decode s (s.encode b) = .ok b := decode_eq_ok_iff.2 ⟨hb, List.prefix_rfl⟩
  exact Except.ok.inj (hshort.symm.trans hlong)

/-- Bytes that end too early are refused. -/
theorem decode_of_truncated (ha : s.Fits a) (hbs : bs <+: s.encode a) (hne : bs ≠ s.encode a) :
    ∃ reason, decode s bs = .error (.serialization reason) := by
  rcases decode_cases s bs with ⟨b, hb⟩ | hrefused
  · obtain ⟨hfits, hbegin⟩ := decode_eq_ok_iff.1 hb
    -- what was read would begin the longer bytes too, and so would be the same value
    obtain rfl := eq_of_encode_prefix hfits ha (hbegin.trans hbs)
    exact absurd (hbs.eq_of_length (Nat.le_antisymm hbs.length_le hbegin.length_le)) hne
  · exact hrefused

end IndexedStore

/-- A stored format is canonical and prefix-free on the values that satisfy `P`. -/
structure Schema.Canonical {α : Type} (s : Schema α) (P : α → Prop) : Prop where
  /-- A value is read exactly from the byte strings that begin with its bytes. -/
  decode_iff : ∀ bs a, IndexedStore.decode s bs = .ok a ↔ P a ∧ s.encode a <+: bs
  /-- What follows the bytes of a value does not matter. -/
  extended : ∀ a, P a → ∀ rest, IndexedStore.decode s (s.encode a ++ rest) = .ok a
  /-- Bytes that end too early are refused. -/
  truncated : ∀ a, P a → ∀ bs, bs <+: s.encode a → bs ≠ s.encode a →
    ∃ reason, IndexedStore.decode s bs = .error (.serialization reason)
  /-- No two values have the same bytes. -/
  injective : ∀ a b, P a → P b → s.encode a = s.encode b → a = b

/-- Every format is canonical on the values that fit it. -/
theorem Schema.canonical {α : Type} (s : Schema α) {P : α → Prop} (hP : ∀ a, s.Fits a ↔ P a) :
    s.Canonical P where
  decode_iff bs a := by
    rw [← hP]
    exact IndexedStore.decode_eq_ok_iff
  extended a ha rest :=
    IndexedStore.decode_eq_ok_iff.2 ⟨(hP a).2 ha, List.prefix_append _ _⟩
  truncated a ha bs hbs hne := IndexedStore.decode_of_truncated ((hP a).2 ha) hbs hne
  injective a b ha hb h :=
    IndexedStore.eq_of_encode_prefix ((hP a).2 ha) ((hP b).2 hb) (h ▸ List.prefix_rfl)

/-- The texts of a registration. -/
def Registration.texts (r : Registration) : List String :=
  [r.owner.text, r.email, r.address.text, r.code, r.ownReferralCode] ++ r.referralCode.toList

/-- The texts of a referral. -/
def Referral.texts (f : Referral) : List String := [f.sender.text, f.receiver.text]

/-- Only the texts of a registration can be too long to be stored. -/
theorem Registration.fits_iff {r : Registration} :
    schema.Fits r ↔ ∀ t ∈ r.texts, byteLength t < UInt64.size := by
  obtain ⟨o, e, a, c, t, u, oc, rc⟩ := r
  cases u <;> cases rc <;>
    simp [schema, texts, Schema.Fits, Fields.Fits, Owner.schema, WalletAddress.schema,
      Timestamp.schema]

/-- Only the texts of a referral can be too long to be stored. -/
theorem Referral.fits_iff {f : Referral} :
    schema.Fits f ↔ ∀ t ∈ f.texts, byteLength t < UInt64.size := by
  obtain ⟨s, r, status, at1, at2, at3, r1, r2⟩ := f
  have hstatus : status.toFin.val < UInt32.size := Nat.lt_trans status.toFin.isLt (by decide)
  cases at2 <;> cases at3 <;> cases r1 <;> cases r2 <;>
    simp [schema, texts, Schema.Fits, Fields.Fits, Owner.schema, Timestamp.schema,
      TokenAmount.schema, ReferralStatus.schema, hstatus]

/-- **Stored records are canonical and prefix-free**, registrations and referrals alike,
whatever their texts, as long as a word can measure each. -/
theorem records_canonical :
    Registration.schema.Canonical (fun r => ∀ t ∈ r.texts, byteLength t < UInt64.size) ∧
      Referral.schema.Canonical (fun f => ∀ t ∈ f.texts, byteLength t < UInt64.size) :=
  ⟨Registration.schema.canonical fun _ => Registration.fits_iff,
    Referral.schema.canonical fun _ => Referral.fits_iff⟩

end Onboarding
