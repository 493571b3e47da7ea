import Onboarding.Proofs.Bech32.Address
import Onboarding.Proofs.Domain
/-!
# Bursts — no local error turns an address into another one

A step of the checksum loses nothing of its state (`step_injective`): the lowest bits of the
generators are independent, so a state whose highest bits chose any of them leaves a trace
below (`reduction_low`), and one that chose none is only moved up. So what two lists of groups
end in is told apart by any groups that follow both (`polymodFrom_injective`). Between the same
groups in front and behind, at most six groups are then told from the state that they lead to
(`eq_of_burst`): from zero it is the number that they spell.

Two accepted texts of one length share the prefix and the separator, and their data parts
lead to one state. Where they differ at all, they do so in the data part, and at positions
too far apart for any six characters in a row (`catches_local_errors`).
-/

namespace Onboarding

/-! ## Differences within a window -/

/-- The positions at which two lists differ are among `n` in a row. -/
def DifferWithin {α : Type} (n : Nat) (as bs : List α) : Prop :=
  ∃ start, ∀ i, as[i]? ≠ bs[i]? → start ≤ i ∧ i < start + n

namespace DifferWithin

variable {α : Type} {n : Nat} {as bs : List α}

/-- Outside of the window the lists are the same. -/
theorem exists_between (h : DifferWithin n as bs) :
    ∃ front mid mid' back, as = front ++ mid ++ back ∧ bs = front ++ mid' ++ back ∧
      mid.length ≤ n ∧ mid'.length ≤ n := by
  obtain ⟨start, hwindow⟩ := h
  have hsame : ∀ i, (i < start ∨ start + n ≤ i) → as[i]? = bs[i]? := by
    intro i hi
    by_contra hne
    have hin := hwindow i hne
    omega
  have hfront : as.take start = bs.take start := by
    refine List.ext_getElem? fun i => ?_
    rw [List.getElem?_take, List.getElem?_take]
    split
    · exact hsame i (.inl ‹_›)
    · rfl
  have hback : (as.drop start).drop n = (bs.drop start).drop n := by
    refine List.ext_getElem? fun i => ?_
    simp only [List.getElem?_drop]
    exact hsame _ (.inr (by omega))
  refine ⟨as.take start, (as.drop start).take n, (bs.drop start).take n, (as.drop start).drop n,
    ?_, ?_, List.length_take_le _ _, List.length_take_le _ _⟩
  · rw [List.append_assoc, List.take_append_drop, List.take_append_drop]
  · rw [List.append_assoc, hfront, hback, List.take_append_drop, List.take_append_drop]

/-- Lists that are the same but for at most `n` elements in a row. -/
theorem of_between {front mid mid' back : List α} (hmid : mid.length ≤ n)
    (hlength : mid.length = mid'.length) :
    DifferWithin n (front ++ mid ++ back) (front ++ mid' ++ back) := by
  rw [List.append_assoc, List.append_assoc]
  refine ⟨front.length, fun i hne => ?_⟩
  by_contra hout
  refine hne ?_
  rcases Nat.lt_or_ge i front.length with hi | hi
  · rw [List.getElem?_append_left hi, List.getElem?_append_left hi]
  · have hbehind : mid.length ≤ i - front.length := by omega
    rw [List.getElem?_append_right hi, List.getElem?_append_right hi,
      List.getElem?_append_right hbehind, List.getElem?_append_right (hlength ▸ hbehind), hlength]

/-- Neither what both lists begin with counts, nor how their elements are written. -/
theorem of_append_map {β : Type} {f : α → β} (hf : Function.Injective f) {front : List β}
    (h : DifferWithin n (front ++ as.map f) (front ++ bs.map f)) : DifferWithin n as bs := by
  obtain ⟨start, hwindow⟩ := h
  refine ⟨start - front.length, fun i hne => ?_⟩
  have hin := hwindow (front.length + i) fun heq => hne ?_
  · omega
  · rw [List.getElem?_append_right (Nat.le_add_right _ _),
      List.getElem?_append_right (Nat.le_add_right _ _), Nat.add_sub_cancel_left,
      List.getElem?_map, List.getElem?_map] at heq
    exact Option.map_injective hf heq

end DifferWithin

namespace Bech32

/-! ## Nothing is lost in a step -/

/-- **The lowest bits of the generators are independent**: a sum of them that is zero there
is the sum of none. -/
theorem reduction_low {s : BitVec 30} (h : (reduction s).setWidth 5 = 0) :
    ∀ i < 5, s.getLsbD (25 + i) = false := by
  have hbits : ∀ a b c d e : Bool,
      (((((0 ^^^ (if a then 0x3b6a57b2 else 0)) ^^^ (if b then 0x26508e6d else 0)) ^^^
        (if c then 0x1ea119fa else 0)) ^^^ (if d then 0x3d4233dd else 0)) ^^^
          (if e then 0x2a1462b3 else 0) : BitVec 30).setWidth 5 = 0 →
      a = false ∧ b = false ∧ c = false ∧ d = false ∧ e = false := by
    decide
  obtain ⟨h0, h1, h2, h3, h4⟩ := hbits _ _ _ _ _ h
  intro i hi
  match i, hi with
  | 0, _ => exact h0
  | 1, _ => exact h1
  | 2, _ => exact h2
  | 3, _ => exact h3
  | 4, _ => exact h4

/-- Only zero is brought to zero without a group. -/
theorem eq_zero_of_step {s : BitVec 30} (h : step s 0 = 0) : s = 0 := by
  -- the shift leaves the lowest bits clear, so that they are those of the reduction
  have hshift : (s <<< 5).setWidth 5 = (0 : Group) := by
    refine BitVec.eq_of_getLsbD_eq fun i hi => ?_
    simp [hi]
  have hlow : (reduction s).setWidth 5 = (0 : Group) := by
    have hwhole : (step s 0).setWidth 5 = (0 : Group) := by rw [h]; rfl
    have hgroup : ((0 : Group).setWidth 30 : BitVec 30) = 0 := rfl
    rw [step, BitVec.setWidth_xor, BitVec.setWidth_xor, hshift, hgroup] at hwhole
    simpa using hwhole
  have hclear := reduction_low hlow
  have hlt : s.toNat < 2 ^ 25 := by
    refine Nat.lt_pow_two_of_testBit _ fun i hi => ?_
    rcases Nat.lt_or_ge i 30 with hin | hout
    · have hbit := hclear (i - 25) (by omega)
      rwa [Nat.add_sub_cancel' hi] at hbit
    · exact BitVec.getLsbD_of_ge s i hout
  have hstep : 0 = 32 * s.toNat + 0 := by
    have hdigit := toNat_step hlt 0
    rwa [h] at hdigit
  exact BitVec.eq_of_toNat_eq (show s.toNat = 0 by omega)

/-- **A step loses nothing** of the state that it is taken from. -/
theorem step_injective (g : Group) : Function.Injective (step · g) := by
  intro s t h
  have hzero : step (s ^^^ t) 0 = 0 := by
    rw [show (0 : Group) = g ^^^ g from BitVec.xor_self.symm, step_xor,
      show step s g = step t g from h]
    exact BitVec.xor_self
  exact BitVec.xor_eq_zero_iff.1 (eq_zero_of_step hzero)

/-- Nor do many steps. -/
theorem polymodFrom_injective (gs : List Group) : Function.Injective (polymodFrom · gs) := by
  induction gs with
  | nil => exact fun _ _ h => h
  | cons g gs ih => exact fun s t h => step_injective g (ih h)

/-- **At most six groups are told from where they lead**, whatever stands in front of them
and behind. -/
theorem eq_of_burst {s : BitVec 30} {front mid mid' back : List Group}
    (hmid : mid.length ≤ checksumLength) (hlength : mid.length = mid'.length)
    (h : polymodFrom s (front ++ mid ++ back) = polymodFrom s (front ++ mid' ++ back)) :
    mid = mid' := by
  rw [polymodFrom_append, polymodFrom_append _ _ back, polymodFrom_append,
    polymodFrom_append _ _ mid'] at h
  have hstate : polymodFrom (polymodFrom s front) mid = polymodFrom (polymodFrom s front) mid' :=
    polymodFrom_injective back h
  -- what comes in front is the same, and is taken out
  rw [polymodFrom_eq_xor _ mid, polymodFrom_eq_xor _ mid', hlength] at hstate
  have hzero : polymodFrom 0 mid = polymodFrom 0 mid' := (BitVec.xor_right_inj _).1 hstate
  refine value_inj hlength ?_
  rw [← toNat_polymodFrom hmid, hzero, toNat_polymodFrom (hlength ▸ hmid)]

/-- Groups that lead to one state and differ within six in a row do not differ. -/
theorem eq_of_differWithin {s : BitVec 30} {gs gs' : List Group}
    (hlength : gs.length = gs'.length) (hwindow : DifferWithin checksumLength gs gs')
    (h : polymodFrom s gs = polymodFrom s gs') : gs = gs' := by
  obtain ⟨front, mid, mid', back, rfl, rfl, hmid, -⟩ := hwindow.exists_between
  have hsame : mid.length = mid'.length := by
    simp only [List.length_append] at hlength
    omega
  rw [eq_of_burst hmid hsame h]

/-! ## Accepted texts -/

/-- The groups of an accepted text lead to one. -/
theorem exists_groups_of_validate {address pre : String} (h : validate address pre = .ok ()) :
    ∃ gs, (asciiLower address).toList = pre.toList ++ ['1'] ++ gs.map letter ∧
      polymod (expandPrefix pre ++ gs) = 1 := by
  obtain ⟨-, -, data, gs, n, hsplit, -, hgroups, ⟨hone, -⟩, -⟩ := validate_eq_ok.1 h
  refine ⟨gs, ?_, hone⟩
  rw [asciiLower, String.toList_ofList, (splitLast?_eq_some_iff.1 hsplit).1,
    groups_eq_ok_iff.1 hgroups, List.append_assoc, List.singleton_append]

/-- Every group is written in one byte. -/
theorem length_bytes_letters (gs : List Group) :
    ((gs.map letter).flatMap Utf8.encodeChar).length = gs.length := by
  have hletter : ∀ g, (Utf8.encodeChar (letter g)).length = 1 := by
    intro g
    refine Utf8.length_encodeChar_of_le ?_
    revert g
    decide
  induction gs with
  | nil => rfl
  | cons g gs ih =>
    rw [List.map_cons, List.flatMap_cons, List.length_append, hletter, ih, List.length_cons,
      Nat.add_comm]

/-- **Accepted texts of one prefix** have as many bytes as each other exactly if they have as
many characters. -/
theorem byteLength_eq_iff_of_validate {s s' pre : String} (hs : validate s pre = .ok ())
    (hs' : validate s' pre = .ok ()) :
    byteLength s = byteLength s' ↔ s.toList.length = s'.toList.length := by
  obtain ⟨gs, htext, -⟩ := exists_groups_of_validate hs
  obtain ⟨gs', htext', -⟩ := exists_groups_of_validate hs'
  have hchars : ∀ t : String, (asciiLower t).toList.length = t.toList.length := by
    simp [asciiLower]
  rw [← byteLength_asciiLower s, ← byteLength_asciiLower s', ← hchars s, ← hchars s']
  unfold byteLength Utf8.bytes
  rw [htext, htext']
  simp only [List.flatMap_append, List.length_append, length_bytes_letters, List.length_map]
  omega

section Pairs

variable {pre s s' : String}

/-- Texts of one prefix that are accepted and differ within six characters in a row fold to
one text. -/
theorem fold_eq_of_differWithin (hs : validate s pre = .ok ()) (hs' : validate s' pre = .ok ())
    (hlength : s.toList.length = s'.toList.length)
    (hwindow : DifferWithin checksumLength (asciiLower s).toList (asciiLower s').toList) :
    asciiLower s = asciiLower s' := by
  obtain ⟨gs, htext, hone⟩ := exists_groups_of_validate hs
  obtain ⟨gs', htext', hone'⟩ := exists_groups_of_validate hs'
  rw [htext, htext'] at hwindow
  have hgroups : gs.length = gs'.length := by
    have h := congrArg List.length htext
    have h' := congrArg List.length htext'
    simp only [asciiLower, String.toList_ofList, List.length_append, List.length_map] at h h'
    omega
  have hstate : polymodFrom (polymod (expandPrefix pre)) gs =
      polymodFrom (polymod (expandPrefix pre)) gs' := by
    rw [polymod, ← polymodFrom_append, ← polymodFrom_append]
    exact hone.trans hone'.symm
  have hsame : gs = gs' :=
    eq_of_differWithin hgroups (hwindow.of_append_map letter_injective) hstate
  rw [← String.toList_inj, htext, htext', hsame]

/-- Accepted texts of one prefix differ in the data part only. -/
theorem lt_of_differ (hs : validate s pre = .ok ()) (hs' : validate s' pre = .ok ()) {i : Nat}
    (hne : (asciiLower s).toList[i]? ≠ (asciiLower s').toList[i]?) : pre.toList.length < i := by
  obtain ⟨gs, htext, -⟩ := exists_groups_of_validate hs
  obtain ⟨gs', htext', -⟩ := exists_groups_of_validate hs'
  by_contra hi
  have hfront : i < (pre.toList ++ ['1']).length := by
    rw [List.length_append, List.length_singleton]
    omega
  refine hne ?_
  rw [htext, htext', List.getElem?_append_left hfront, List.getElem?_append_left hfront]

/-- Up to six adjacent characters put in the place of as many lead to a text that folds to the
same. -/
theorem fold_eq_of_substitution (hs : validate s pre = .ok ()) (hs' : validate s' pre = .ok ())
    (hlength : s.toList.length = s'.toList.length) {front mid mid' back : List Char}
    (htext : s.toList = front ++ mid ++ back) (htext' : s'.toList = front ++ mid' ++ back)
    (hmid : mid.length ≤ checksumLength) : asciiLower s = asciiLower s' := by
  refine fold_eq_of_differWithin hs hs' hlength ?_
  have hsame : (mid.map Char.toLower).length = (mid'.map Char.toLower).length := by
    rw [htext, htext'] at hlength
    simp only [List.length_append, List.length_map] at hlength ⊢
    omega
  simp only [asciiLower, String.toList_ofList, htext, htext', List.map_append]
  exact .of_between (by rwa [List.length_map]) hsame

/-- The letters of an accepted text are of one case. -/
theorem oneCase_of_validate (hs : validate s pre = .ok ()) : OneCase s.toList :=
  OneCase.iff_any.2 (validate_eq_ok.1 hs).2.1

/-- Accepted texts that fold to the same and share a letter are the same. -/
theorem eq_of_fold_of_letter (hs : validate s pre = .ok ()) (hs' : validate s' pre = .ok ())
    (hfold : asciiLower s = asciiLower s') {c : Char} (hc : c ∈ s.toList) (hc' : c ∈ s'.toList)
    (hletter : c.isAlpha = true) : s = s' := by
  have hcase := (oneCase_of_validate hs).append (oneCase_of_validate hs') hc hc' hletter
  exact String.toList_inj.1 (hcase.eq_of_fold (String.ofList_injective hfold))

/-- **Neighbours that are swapped** in an accepted text, with an accepted text as the result, are
the same character. -/
theorem eq_of_swap (hs : validate s pre = .ok ()) (hs' : validate s' pre = .ok ())
    {front back : List Char} {c d : Char} (htext : s.toList = front ++ [c, d] ++ back)
    (htext' : s'.toList = front ++ [d, c] ++ back) : s = s' := by
  have hlength : s.toList.length = s'.toList.length := by simp [htext, htext']
  have hfold := fold_eq_of_substitution hs hs' hlength htext htext'
    (show 2 ≤ checksumLength by decide)
  have hlower : [c].map Char.toLower = [d].map Char.toLower := by
    have hlists := String.ofList_injective hfold
    rw [htext, htext', List.map_append, List.map_append, List.map_append, List.map_append] at hlists
    have hmid := List.append_cancel_left (List.append_cancel_right hlists)
    exact congrArg (List.take 1) hmid
  -- both stand in one text, and so are of one case
  have hsub : [c] ++ [d] ⊆ s.toList := by
    rw [htext]
    simp
  have hsame : [c] = [d] := ((oneCase_of_validate hs).subset hsub).eq_of_fold hlower
  rw [← String.toList_inj, htext, htext', List.singleton_injective hsame]

end Pairs

/-- **The checksum catches every local typing error.** Two texts of one length that are accepted
with one prefix are the same but for the case of their letters, or differ in the data part, at
positions that no six characters in a row hold. So no substitution of up to six adjacent
characters leads from an address to another one, not even to the same one in the other case
as long as a letter is left; and no swap of neighbours does. -/
theorem catches_local_errors {pre s s' : String} (hs : validate s pre = .ok ())
    (hs' : validate s' pre = .ok ())
    (hlength : byteLength s = byteLength s' ∨ s.toList.length = s'.toList.length) :
    (asciiLower s = asciiLower s' ∨
      (∀ i, (asciiLower s).toList[i]? ≠ (asciiLower s').toList[i]? → pre.toList.length < i) ∧
        ¬ DifferWithin 6 (asciiLower s).toList (asciiLower s').toList) ∧
    (∀ front mid mid' back, s.toList = front ++ mid ++ back → s'.toList = front ++ mid' ++ back →
      mid.length ≤ 6 → asciiLower s = asciiLower s' ∧
        ((∃ c ∈ front ++ back, c.isAlpha = true) → s = s')) ∧
    ∀ front c d back, s.toList = front ++ [c, d] ++ back → s'.toList = front ++ [d, c] ++ back →
      s = s' := by
  have hchars : s.toList.length = s'.toList.length :=
    hlength.elim (byteLength_eq_iff_of_validate hs hs').1 id
  refine ⟨?_, ?_, ?_⟩
  · by_cases hwindow : DifferWithin 6 (asciiLower s).toList (asciiLower s').toList
    · exact .inl (fold_eq_of_differWithin hs hs' hchars hwindow)
    · exact .inr ⟨fun i => lt_of_differ hs hs', hwindow⟩
  · intro front mid mid' back htext htext' hmid
    have hfold := fold_eq_of_substitution hs hs' hchars htext htext' hmid
    refine ⟨hfold, ?_⟩
    rintro ⟨c, hc, hletter⟩
    have hmem : ∀ m, c ∈ front ++ m ++ back := by
      intro m
      rw [List.append_assoc]
      rw [List.mem_append] at hc ⊢
      exact hc.imp id (List.mem_append_right m)
    exact eq_of_fold_of_letter hs hs' hfold (htext ▸ hmem mid) (htext' ▸ hmem mid') hletter
  · intro front c d back htext htext'
    exact eq_of_swap hs hs' htext htext'

/-- Two accounts have addresses that no local error leads between. -/
theorem catches_local_errors_accounts :
    validate "decentr1vg085ra5hw8mx5rrheqf8fruks0xv4urqkuqga" "decentr" = .ok () ∧
      validate "decentr190vqdjtlpcq27xslcveglfmr4ynfwg7gt47r3m" "decentr" = .ok () ∧
      ¬ DifferWithin 6 (asciiLower "decentr1vg085ra5hw8mx5rrheqf8fruks0xv4urqkuqga").toList
        (asciiLower "decentr190vqdjtlpcq27xslcveglfmr4ynfwg7gt47r3m").toList := by
  have hs : validate "decentr1vg085ra5hw8mx5rrheqf8fruks0xv4urqkuqga" "decentr" = .ok () := by
    decide +kernel
  have hs' : validate "decentr190vqdjtlpcq27xslcveglfmr4ynfwg7gt47r3m" "decentr" = .ok () := by
    decide +kernel
  have hlength : byteLength "decentr1vg085ra5hw8mx5rrheqf8fruks0xv4urqkuqga" =
      byteLength "decentr190vqdjtlpcq27xslcveglfmr4ynfwg7gt47r3m" := by
    decide +kernel
  have hne : asciiLower "decentr1vg085ra5hw8mx5rrheqf8fruks0xv4urqkuqga" ≠
      asciiLower "decentr190vqdjtlpcq27xslcveglfmr4ynfwg7gt47r3m" := by
    decide +kernel
  obtain ⟨hpair, -, -⟩ := catches_local_errors hs hs' (.inl hlength)
  exact ⟨hs, hs', (hpair.resolve_left hne).2⟩

end Bech32

end Onboarding
