import Mathlib.Data.List.GetD
import Onboarding.Proofs.Bech32.Checksum
import Onboarding.Proofs.Bech32.Payload
import Onboarding.Proofs.Email
import Onboarding.Proofs.Text.Case
import Onboarding.Proofs.Text.Split
/-!
# Addresses — what is accepted is what is written

A text is an address of a payload if it is what `encode` writes, or that in capital letters.
`validate` takes the addresses of accounts and contracts and no other text, as long as they
are short enough (`accepts_iff`). Each of its checks is a step of `encode` taken back, and
there is one way to take it back: a text is cut at one separator (`splitLast?_eq_some_iff`),
read as one list of groups (`groups_eq_ok_iff`), of which the last six are one checksum
(`polymod_append_eq_one_iff`) and the others are cut from one payload
(`payloadLength?_eq_some_iff`).
-/

namespace Onboarding

namespace Bech32

/-! ## Letters -/

theorem group?_letter (g : Group) : group? (letter g) = some g := by
  revert g
  decide

theorem letter_of_group? {c : Char} {g : Group} (h : group? c = some g) : letter g = c := by
  obtain ⟨i, hi, rfl⟩ := Option.map_eq_some_iff.1 h
  obtain ⟨hlt, hget, -⟩ := List.idxOf?_eq_some_iff.1 hi
  have hsmall : i < 32 := hlt
  unfold letter
  rw [BitVec.toNat_ofNat, Nat.mod_eq_of_lt hsmall, List.getD_eq_getElem _ _ hlt]
  exact hget

theorem letter_injective : Function.Injective letter := fun g h heq =>
  Option.some.inj ((group?_letter g).symm.trans (heq ▸ group?_letter h))

theorem letter_ne_separator (g : Group) : letter g ≠ '1' := by
  revert g
  decide

theorem isUpper_letter (g : Group) : (letter g).isUpper = false := by
  revert g
  decide

/-- **The groups of a data part** are those that it is written with. -/
theorem groups_eq_ok_iff {data : List Char} {gs : List Group} :
    groups data = .ok gs ↔ data = gs.map letter := by
  constructor
  · intro h
    induction data generalizing gs with
    | nil =>
      cases h
      rfl
    | cons c data ih =>
      rw [groups] at h
      split at h
      · cases h
      rename_i g hg
      obtain ⟨rest, hrest, rfl⟩ := map_eq_ok h
      rw [List.map_cons, letter_of_group? hg, ← ih hrest]
  · rintro rfl
    induction gs with
    | nil => rfl
    | cons g gs ih =>
      rw [List.map_cons, groups, group?_letter]
      dsimp only
      rw [ih]
      rfl

/-! ## Data parts -/

/-- The groups behind the separator of an address. -/
def dataGroups (pre : String) (payload : List UInt8) : List Group :=
  payloadGroups payload ++ checksum pre (payloadGroups payload)

theorem dataGroups_injective (pre : String) : Function.Injective (dataGroups pre) := by
  intro payload other h
  have hparts := List.append_inj' h ((length_checksum _ _).trans (length_checksum _ _).symm)
  exact payloadGroups_injective hparts.1

theorem payloadGroups_nil : payloadGroups [] = [] := by simp [payloadGroups, groupBits]

theorem payloadGroups_ne_nil {payload : List UInt8} (h : payload ≠ []) :
    payloadGroups payload ≠ [] := by
  intro hnil
  exact h (payloadGroups_injective (hnil.trans payloadGroups_nil.symm))

/-- **The groups that pass the checks** are those of a payload, with their checksum. -/
theorem checked_iff {pre : String} {gs : List Group} {n : Nat} :
    polymod (expandPrefix pre ++ gs) = 1 ∧
        payloadLength? (gs.take (gs.length - checksumLength)) = some n ↔
      ∃ payload : List UInt8, payload ≠ [] ∧ payload.length = n ∧ dataGroups pre payload = gs := by
  constructor
  · rintro ⟨hone, hlength⟩
    obtain ⟨hne, payload, hn, hgroups⟩ := payloadLength?_eq_some_iff.1 hlength
    -- there are more groups than those of the checksum
    have hlong : checksumLength < gs.length := by
      by_contra hshort
      rw [show gs.length - checksumLength = 0 by omega] at hne
      exact hne List.take_zero
    have hlast : (gs.drop (gs.length - checksumLength)).length = checksumLength := by
      rw [List.length_drop]
      omega
    have hsplit := List.take_append_drop (gs.length - checksumLength) gs
    rw [← hsplit, polymod_append_eq_one_iff hlast, ← hgroups] at hone
    refine ⟨payload, ?_, hn, ?_⟩
    · rintro rfl
      exact hne (hgroups.symm.trans payloadGroups_nil)
    · rw [dataGroups, ← hone, hgroups, hsplit]
  · rintro ⟨payload, hne, hn, rfl⟩
    have htake : (dataGroups pre payload).take
        ((dataGroups pre payload).length - checksumLength) = payloadGroups payload := by
      refine List.take_left' ?_
      rw [dataGroups, List.length_append, length_checksum, Nat.add_sub_cancel]
    rw [htake]
    exact ⟨(polymod_append_eq_one_iff (length_checksum _ _)).2 rfl,
      payloadLength?_eq_some_iff.2 ⟨payloadGroups_ne_nil hne, payload, hn, rfl⟩⟩

/-! ## Texts -/

theorem toList_encode (pre : String) (payload : List UInt8) :
    (encode pre payload).toList = pre.toList ++ '1' :: (dataGroups pre payload).map letter := by
  simp [encode, dataGroups]

/-- A text is an address of a payload. -/
def Writes (pre : String) (payload : List UInt8) (address : String) : Prop :=
  address = encode pre payload ∨ address = asciiUpper (encode pre payload)

/-- An address is of one case, and folds to what was written. -/
theorem writes_iff {pre : String} (hpre : ∀ c ∈ pre.toList, c.isUpper = false)
    {payload : List UInt8} {address : String} :
    Writes pre payload address ↔
      (address.toList.any Char.isLower && address.toList.any Char.isUpper) = false ∧
        address.toList.map Char.toLower =
          pre.toList ++ '1' :: (dataGroups pre payload).map letter := by
  have hupper : ∀ c ∈ (encode pre payload).toList, c.isUpper = false := by
    intro c hc
    rw [toList_encode, List.mem_append, List.mem_cons, List.mem_map] at hc
    rcases hc with hc | rfl | ⟨g, -, rfl⟩
    · exact hpre c hc
    · rfl
    · exact isUpper_letter g
  rw [← toList_encode, folds_iff hupper, Writes, asciiUpper, ← String.toList_inj,
    ← String.toList_inj, String.toList_ofList]

/-- What is accepted, check by check. -/
theorem validate_eq_ok {address pre : String} :
    validate address pre = .ok () ↔ byteLength address ≤ maxLength ∧
      (address.toList.any Char.isLower && address.toList.any Char.isUpper) = false ∧
      ∃ data gs n, splitLast? '1' (address.toList.map Char.toLower) = some (pre.toList, data) ∧
        checksumLength < byteLength (String.ofList data) ∧ groups data = .ok gs ∧
        (polymod (expandPrefix pre ++ gs) = 1 ∧
          payloadLength? (gs.take (gs.length - checksumLength)) = some n) ∧
        isPayloadLength n = true := by
  unfold validate
  dsimp only
  constructor
  · intro h
    split at h
    · cases h
    rename_i hshort
    split at h
    · cases h
    rename_i hcase
    refine ⟨Nat.not_lt.1 hshort, eq_false_of_ne_true hcase, ?_⟩
    split at h
    · cases h
    rename_i front data hsplit
    split at h
    · cases h
    rename_i hpre
    split at h
    · cases h
    rename_i hroom
    split at h
    · cases h
    rename_i gs hgroups
    split at h
    · cases h
    rename_i hone
    split at h
    · rename_i n hn
      split at h
      · rename_i hlength
        have hfront : front = pre.toList := by
          rw [← not_not.1 hpre, String.toList_ofList]
        rw [hfront] at hsplit
        exact ⟨data, gs, n, hsplit, Nat.not_le.1 hroom, hgroups, ⟨not_not.1 hone, hn⟩, hlength⟩
      · cases h
    · cases h
  · rintro ⟨hshort, hcase, data, gs, n, hsplit, hroom, hgroups, ⟨hone, hn⟩, hlength⟩
    have hpre : ¬ String.ofList pre.toList ≠ pre := not_not.2 String.ofList_toList
    rw [if_neg (Nat.not_lt.2 hshort), hcase, if_neg Bool.false_ne_true, hsplit]
    dsimp only
    rw [if_neg hpre, if_neg (Nat.not_le.2 hroom), hgroups]
    dsimp only
    rw [if_neg (not_not.2 hone), hn]
    dsimp only
    rw [if_pos hlength]

theorem isPayloadLength_iff {n : Nat} : isPayloadLength n = true ↔ n = 20 ∨ n = 32 := by
  simp [isPayloadLength]

/-- A text folds to one payload. -/
theorem eq_of_writes {pre address : String} (hpre : ∀ c ∈ pre.toList, c.isUpper = false)
    {payload other : List UInt8} (h : Writes pre payload address)
    (h' : Writes pre other address) : payload = other := by
  have hfolded := ((writes_iff hpre).1 h).2.symm.trans ((writes_iff hpre).1 h').2
  have hletters := List.tail_eq_of_cons_eq (List.append_cancel_left hfolded)
  exact dataGroups_injective pre (List.map_injective_iff.2 letter_injective hletters)

/-- **Exactly the addresses of accounts and contracts are accepted**, and each of them is
the address of one payload. -/
theorem accepts_iff (address pre : String) (hpre : ∀ c ∈ pre.toList, c.isUpper = false) :
    (validate address pre = .ok () ↔ byteLength address ≤ 90 ∧
      ∃ payload : List UInt8, (payload.length = 20 ∨ payload.length = 32) ∧
        Writes pre payload address) ∧
    ∀ payload other, Writes pre payload address → Writes pre other address →
      payload = other := by
  refine ⟨?_, fun payload other => eq_of_writes hpre⟩
  rw [validate_eq_ok]
  constructor
  · rintro ⟨hshort, hcase, data, gs, n, hsplit, -, hgroups, hchecked, hlength⟩
    obtain ⟨payload, -, hn, rfl⟩ := checked_iff.1 hchecked
    have hfolded := (splitLast?_eq_some_iff.1 hsplit).1
    rw [groups_eq_ok_iff.1 hgroups] at hfolded
    rw [← hn, isPayloadLength_iff] at hlength
    exact ⟨hshort, payload, hlength, (writes_iff hpre).2 ⟨hcase, hfolded⟩⟩
  · rintro ⟨hshort, payload, hlength, hwrites⟩
    obtain ⟨hcase, hfolded⟩ := (writes_iff hpre).1 hwrites
    have hne : payload ≠ [] := by
      rintro rfl
      simp at hlength
    have hseparator : '1' ∉ (dataGroups pre payload).map letter := by
      intro hmem
      obtain ⟨g, -, hg⟩ := List.mem_map.1 hmem
      exact letter_ne_separator g hg
    -- there is a letter for each group, and at least one more than those of the checksum
    have hroom : checksumLength <
        byteLength (String.ofList ((dataGroups pre payload).map letter)) := by
      refine Nat.lt_of_lt_of_le ?_ (length_le_byteLength _).1
      have hpos := List.length_pos_iff.2 (payloadGroups_ne_nil hne)
      rw [String.toList_ofList, List.length_map, dataGroups, List.length_append, length_checksum]
      omega
    exact ⟨hshort, hcase, _, _, _, splitLast?_eq_some_iff.2 ⟨hfolded, hseparator⟩, hroom,
      groups_eq_ok_iff.2 rfl, checked_iff.2 ⟨payload, hne, rfl, rfl⟩,
      isPayloadLength_iff.2 hlength⟩

/-- The payload of an account. -/
def account : List UInt8 :=
  [98, 30, 122, 15, 180, 187, 143, 179, 80, 99, 190, 64, 147, 164, 124, 180, 30, 102, 87, 131]

/-- The address of an account is accepted in capital letters, and is the address of no other
payload. -/
theorem accepts_iff_account :
    (∀ c ∈ "decentr".toList, c.isUpper = false) ∧
      validate "DECENTR1VG085RA5HW8MX5RRHEQF8FRUKS0XV4URQKUQGA" "decentr" = .ok () ∧
      ∀ payload, Writes "decentr" payload "DECENTR1VG085RA5HW8MX5RRHEQF8FRUKS0XV4URQKUQGA" →
        payload = account := by
  have hpre : ∀ c ∈ "decentr".toList, c.isUpper = false := by simp
  have hshort : byteLength "DECENTR1VG085RA5HW8MX5RRHEQF8FRUKS0XV4URQKUQGA" ≤ 90 := by
    decide +kernel
  have hcapital : "DECENTR1VG085RA5HW8MX5RRHEQF8FRUKS0XV4URQKUQGA" =
      asciiUpper (encode "decentr" account) := by
    decide +kernel
  obtain ⟨haccepted, hunique⟩ :=
    accepts_iff "DECENTR1VG085RA5HW8MX5RRHEQF8FRUKS0XV4URQKUQGA" "decentr" hpre
  exact ⟨hpre, haccepted.2 ⟨hshort, account, .inl rfl, .inr hcapital⟩,
    fun payload hwrites => hunique payload account hwrites (.inr hcapital)⟩

end Bech32

end Onboarding
