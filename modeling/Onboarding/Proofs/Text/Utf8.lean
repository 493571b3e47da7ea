import Onboarding.Proofs.Computation
import Onboarding.Text.Utf8
/-!
# UTF-8 — a text is read back from its bytes

`text_bytes` is the statement that stored texts rest on. It goes by the number of
bytes of the first character (`charsFrom_encodeChar_append`); what is needed of each
byte is its value and the range it lies in. Byte strings of texts can then be compared
in place of the texts (`bytes_inj`). The same ranges leave each character one spelling, so
bytes that hold a text are the bytes of that text (`text_eq_ok_iff`).
-/

namespace Onboarding

namespace Utf8

/-- A byte read from a number that fits. -/
theorem toNat_ofNat_of_lt {n : Nat} (h : n < 256) : (UInt8.ofNat n).toNat = n := by
  rw [UInt8.toNat_ofNat']
  omega

/-- Six more bits are read as they were written. -/
theorem push_ofNat {high m : Nat} (h : m < 64) :
    push high (UInt8.ofNat (m + 128)) = high * 64 + m := by
  have hb := toNat_ofNat_of_lt (n := m + 128) (by omega)
  unfold push
  rw [hb]
  omega

theorem isTail_eq_true {b : UInt8} : isTail b = true ↔ 128 ≤ b.toNat ∧ b.toNat ≤ 191 := by
  simp [isTail, UInt8.le_iff_toNat_le]

theorem second3_eq_true {a b : UInt8} : second3 a b = true ↔
    (a.toNat = 224 ∧ 160 ≤ b.toNat ∧ b.toNat ≤ 191) ∨
      (225 ≤ a.toNat ∧ a.toNat ≤ 236 ∧ 128 ≤ b.toNat ∧ b.toNat ≤ 191) ∨
      (a.toNat = 237 ∧ 128 ≤ b.toNat ∧ b.toNat ≤ 159) ∨
      (238 ≤ a.toNat ∧ a.toNat ≤ 239 ∧ 128 ≤ b.toNat ∧ b.toNat ≤ 191) := by
  simp [second3, isTail, UInt8.le_iff_toNat_le, ← UInt8.toNat_inj, and_assoc, or_assoc]

theorem second4_eq_true {a b : UInt8} : second4 a b = true ↔
    (a.toNat = 240 ∧ 144 ≤ b.toNat ∧ b.toNat ≤ 191) ∨
      (241 ≤ a.toNat ∧ a.toNat ≤ 243 ∧ 128 ≤ b.toNat ∧ b.toNat ≤ 191) ∨
      (a.toNat = 244 ∧ 128 ≤ b.toNat ∧ b.toNat ≤ 143) := by
  simp [second4, isTail, UInt8.le_iff_toNat_le, ← UInt8.toNat_inj, and_assoc, or_assoc]

/-! ## Characters by their number of bytes -/

theorem charsFrom_one {start : Nat} {a : UInt8} {r : List UInt8} (ha : a.toNat ≤ 127) :
    charsFrom start (a :: r) = (charsFrom (start + 1) r).map (Char.ofNat a.toNat :: ·) := by
  have h : a < 0x80 := by simp only [UInt8.lt_iff_toNat_lt, UInt8.reduceToNat]; omega
  rw [charsFrom.eq_def]
  simp only [if_pos h]

theorem charsFrom_two {start : Nat} {a b : UInt8} {r : List UInt8}
    (ha : 194 ≤ a.toNat ∧ a.toNat ≤ 223) (hb : isTail b = true) :
    charsFrom start (a :: b :: r) =
      (charsFrom (start + 2) r).map (Char.ofNat (push (a.toNat - 192) b) :: ·) := by
  have h1 : ¬ a < 0x80 := by simp only [UInt8.lt_iff_toNat_lt, UInt8.reduceToNat]; omega
  have h2 : (0xC2 ≤ a && a ≤ 0xDF) = true := by simpa [UInt8.le_iff_toNat_le] using ha
  rw [charsFrom.eq_def]
  simp only [if_neg h1, if_pos h2, if_pos hb]

theorem charsFrom_three {start : Nat} {a b c : UInt8} {r : List UInt8}
    (hab : second3 a b = true) (hc : isTail c = true) :
    charsFrom start (a :: b :: c :: r) =
      (charsFrom (start + 3) r).map
        (Char.ofNat (push (push (a.toNat - 224) b) c) :: ·) := by
  have hr := second3_eq_true.1 hab
  have h1 : ¬ a < 0x80 := by simp only [UInt8.lt_iff_toNat_lt, UInt8.reduceToNat]; omega
  have h2 : ¬ (0xC2 ≤ a && a ≤ 0xDF) = true := by
    simp only [Bool.and_eq_true, decide_eq_true_eq, UInt8.le_iff_toNat_le, UInt8.reduceToNat]
    omega
  have h3 : (0xE0 ≤ a && a ≤ 0xEF) = true := by
    simp only [Bool.and_eq_true, decide_eq_true_eq, UInt8.le_iff_toNat_le, UInt8.reduceToNat]
    omega
  rw [charsFrom.eq_def]
  simp only [if_neg h1, if_neg h2, if_pos h3, hab, if_pos hc, Bool.not_true, Bool.false_eq_true,
    if_false]

theorem charsFrom_four {start : Nat} {a b c d : UInt8} {r : List UInt8}
    (hab : second4 a b = true) (hc : isTail c = true) (hd : isTail d = true) :
    charsFrom start (a :: b :: c :: d :: r) =
      (charsFrom (start + 4) r).map
        (Char.ofNat (push (push (push (a.toNat - 240) b) c) d) :: ·) := by
  have hr := second4_eq_true.1 hab
  have h1 : ¬ a < 0x80 := by simp only [UInt8.lt_iff_toNat_lt, UInt8.reduceToNat]; omega
  have h2 : ¬ (0xC2 ≤ a && a ≤ 0xDF) = true := by
    simp only [Bool.and_eq_true, decide_eq_true_eq, UInt8.le_iff_toNat_le, UInt8.reduceToNat]
    omega
  have h3 : ¬ (0xE0 ≤ a && a ≤ 0xEF) = true := by
    simp only [Bool.and_eq_true, decide_eq_true_eq, UInt8.le_iff_toNat_le, UInt8.reduceToNat]
    omega
  have h4 : (0xF0 ≤ a && a ≤ 0xF4) = true := by
    simp only [Bool.and_eq_true, decide_eq_true_eq, UInt8.le_iff_toNat_le, UInt8.reduceToNat]
    omega
  rw [charsFrom.eq_def]
  simp only [if_neg h1, if_neg h2, if_neg h3, if_pos h4, hab, hc, if_pos hd, Bool.not_true,
    Bool.false_eq_true, if_false]

/-- **A character is read off the front of its bytes**, and the rest as if it stood
alone further on. -/
theorem charsFrom_encodeChar_append (start : Nat) (c : Char) (bs : List UInt8) :
    charsFrom start (encodeChar c ++ bs) =
      (charsFrom (start + (encodeChar c).length) bs).map (c :: ·) := by
  -- characters are not surrogates, and so the second byte is in its range
  have hrange : c.toNat < 55296 ∨ (57343 < c.toNat ∧ c.toNat < 1114112) := c.valid
  have hc : ∀ n, n = c.toNat → Char.ofNat n = c := fun n h => h ▸ Char.ofNat_toNat c
  -- by the number of bytes, in the order in which the encoding tries them
  unfold encodeChar String.utf8EncodeChar
  simp only [show c.val.toNat = c.toNat from rfl]
  split
  · have ha := toNat_ofNat_of_lt (n := c.toNat) (by omega)
    simp only [List.cons_append, List.nil_append, List.length_cons, List.length_nil, Nat.reduceAdd]
    rw [charsFrom_one (by omega), hc _ ha]
  split
  · have ha := toNat_ofNat_of_lt (n := c.toNat / 64 % 32 + 192) (by omega)
    have hb := toNat_ofNat_of_lt (n := c.toNat % 64 + 128) (by omega)
    simp only [List.cons_append, List.nil_append, List.length_cons, List.length_nil, Nat.reduceAdd]
    rw [charsFrom_two (by omega) (isTail_eq_true.2 (by omega)), hc]
    rw [push_ofNat (by omega), ha]
    omega
  split
  · have ha := toNat_ofNat_of_lt (n := c.toNat / 4096 % 16 + 224) (by omega)
    have hb := toNat_ofNat_of_lt (n := c.toNat / 64 % 64 + 128) (by omega)
    have hc' := toNat_ofNat_of_lt (n := c.toNat % 64 + 128) (by omega)
    simp only [List.cons_append, List.nil_append, List.length_cons, List.length_nil, Nat.reduceAdd]
    rw [charsFrom_three (second3_eq_true.2 (by omega)) (isTail_eq_true.2 (by omega)), hc]
    rw [push_ofNat (by omega), push_ofNat (by omega), ha]
    omega
  · have ha := toNat_ofNat_of_lt (n := c.toNat / 262144 % 8 + 240) (by omega)
    have hb := toNat_ofNat_of_lt (n := c.toNat / 4096 % 64 + 128) (by omega)
    have hc' := toNat_ofNat_of_lt (n := c.toNat / 64 % 64 + 128) (by omega)
    have hd := toNat_ofNat_of_lt (n := c.toNat % 64 + 128) (by omega)
    simp only [List.cons_append, List.nil_append, List.length_cons, List.length_nil, Nat.reduceAdd]
    rw [charsFrom_four (second4_eq_true.2 (by omega)) (isTail_eq_true.2 (by omega))
      (isTail_eq_true.2 (by omega)), hc]
    rw [push_ofNat (by omega), push_ofNat (by omega), push_ofNat (by omega), ha]
    omega

/-! ## Characters that were read -/

/-- A number that is no surrogate is the number of its character. -/
theorem toNat_charOfNat {n : Nat} (h : n < 55296 ∨ (57343 < n ∧ n < 1114112)) :
    (Char.ofNat n).toNat = n := by
  have hvalid : n.isValidChar := h
  rw [Char.ofNat, dif_pos hvalid]
  rfl

/-- A byte is known by its value. -/
theorem ofNat_eq {n : Nat} {b : UInt8} (h : n = b.toNat) : UInt8.ofNat n = b := by
  rw [h, UInt8.ofNat_toNat]

/-- A continuation byte carries six bits. -/
theorem push_of_isTail (high : Nat) {b : UInt8} (hb : isTail b = true) :
    ∃ low, low < 64 ∧ b.toNat = low + 128 ∧ push high b = high * 64 + low := by
  obtain ⟨hmin, hmax⟩ := isTail_eq_true.1 hb
  exact ⟨b.toNat - 128, by omega, by omega, rfl⟩

theorem encodeChar_of_one {a : UInt8} (ha : a.toNat ≤ 127) :
    encodeChar (Char.ofNat a.toNat) = [a] := by
  have hn := toNat_charOfNat (n := a.toNat) (by omega)
  unfold encodeChar String.utf8EncodeChar
  simp only [show (Char.ofNat a.toNat).val.toNat = a.toNat from hn]
  rw [if_pos ha, UInt8.ofNat_toNat]

theorem encodeChar_of_two {a b : UInt8} (ha : 194 ≤ a.toNat ∧ a.toNat ≤ 223)
    (hb : isTail b = true) :
    encodeChar (Char.ofNat (push (a.toNat - 192) b)) = [a, b] := by
  obtain ⟨m, hm, hbm, hpush⟩ := push_of_isTail (a.toNat - 192) hb
  generalize push (a.toNat - 192) b = n at hpush ⊢
  have hn := toNat_charOfNat (n := n) (by omega)
  unfold encodeChar String.utf8EncodeChar
  simp only [show (Char.ofNat n).val.toNat = n from hn]
  rw [if_neg (by omega), if_pos (by omega), ofNat_eq (b := a) (by omega),
    ofNat_eq (b := b) (by omega)]

theorem encodeChar_of_three {a b c : UInt8} (hab : second3 a b = true) (hc : isTail c = true) :
    encodeChar (Char.ofNat (push (push (a.toNat - 224) b) c)) = [a, b, c] := by
  have hr := second3_eq_true.1 hab
  obtain ⟨m, hm, hbm, hpush⟩ :=
    push_of_isTail (a.toNat - 224) (isTail_eq_true.2 (by omega) : isTail b = true)
  generalize push (a.toNat - 224) b = p at hpush ⊢
  obtain ⟨k, hk, hck, hpush'⟩ := push_of_isTail p hc
  generalize push p c = n at hpush' ⊢
  have hn := toNat_charOfNat (n := n) (by omega)
  unfold encodeChar String.utf8EncodeChar
  simp only [show (Char.ofNat n).val.toNat = n from hn]
  rw [if_neg (by omega), if_neg (by omega), if_pos (by omega), ofNat_eq (b := a) (by omega),
    ofNat_eq (b := b) (by omega), ofNat_eq (b := c) (by omega)]

theorem encodeChar_of_four {a b c d : UInt8} (hab : second4 a b = true) (hc : isTail c = true)
    (hd : isTail d = true) :
    encodeChar (Char.ofNat (push (push (push (a.toNat - 240) b) c) d)) = [a, b, c, d] := by
  have hr := second4_eq_true.1 hab
  obtain ⟨m, hm, hbm, hpush⟩ :=
    push_of_isTail (a.toNat - 240) (isTail_eq_true.2 (by omega) : isTail b = true)
  generalize push (a.toNat - 240) b = p at hpush ⊢
  obtain ⟨k, hk, hck, hpush'⟩ := push_of_isTail p hc
  generalize push p c = q at hpush' ⊢
  obtain ⟨l, hl, hdl, hlast⟩ := push_of_isTail q hd
  generalize push q d = n at hlast ⊢
  have hn := toNat_charOfNat (n := n) (by omega)
  unfold encodeChar String.utf8EncodeChar
  simp only [show (Char.ofNat n).val.toNat = n from hn]
  rw [if_neg (by omega), if_neg (by omega), if_neg (by omega), ofNat_eq (b := a) (by omega),
    ofNat_eq (b := b) (by omega), ofNat_eq (b := c) (by omega), ofNat_eq (b := d) (by omega)]

/-- **Bytes that hold characters are the bytes of those characters**: no character has a
second spelling. -/
theorem flatMap_encodeChar_of_charsFrom {start : Nat} {bs : List UInt8} {cs : List Char}
    (h : charsFrom start bs = .ok cs) : cs.flatMap encodeChar = bs := by
  fun_induction charsFrom start bs generalizing cs with
  | case1 => cases h; rfl
  | case2 _ a r hone ih =>
    obtain ⟨cs', hr, rfl⟩ := map_eq_ok h
    have ha : a.toNat ≤ 127 := by
      simp only [UInt8.lt_iff_toNat_lt, UInt8.reduceToNat] at hone
      omega
    rw [List.flatMap_cons, ih hr, encodeChar_of_one ha]
    rfl
  | case4 _ a _ htwo b r hb ih =>
    obtain ⟨cs', hr, rfl⟩ := map_eq_ok h
    have ha : 194 ≤ a.toNat ∧ a.toNat ≤ 223 := by simpa [UInt8.le_iff_toNat_le] using htwo
    rw [List.flatMap_cons, ih hr, encodeChar_of_two ha hb]
    rfl
  | case9 _ a _ _ _ b hab c r hc ih =>
    obtain ⟨cs', hr, rfl⟩ := map_eq_ok h
    rw [List.flatMap_cons, ih hr, encodeChar_of_three (by simpa using hab) hc]
    rfl
  | case16 _ a _ _ _ _ b hab c hc d r hd ih =>
    obtain ⟨cs', hr, rfl⟩ := map_eq_ok h
    rw [List.flatMap_cons, ih hr, encodeChar_of_four (by simpa using hab) (by simpa using hc) hd]
    rfl
  -- every other case is a fault
  | case3 | case5 | case6 | case7 | case8 | case10 | case11 | case12 | case13 | case14 | case15
  | case17 | case18 => cases h

/-! ## Texts -/

theorem charsFrom_flatMap_encodeChar (start : Nat) (cs : List Char) :
    charsFrom start (cs.flatMap encodeChar) = .ok cs := by
  induction cs generalizing start with
  | nil => rw [List.flatMap_nil, charsFrom.eq_def]
  | cons c r ih => rw [List.flatMap_cons, charsFrom_encodeChar_append, ih]; rfl

/-- **A text is read back from its bytes.** -/
@[simp] theorem text_bytes (s : String) : text (bytes s) = .ok s := by
  rw [text, bytes, charsFrom_flatMap_encodeChar]
  exact congrArg Except.ok String.ofList_toList

/-- **Bytes hold a text exactly if they are its bytes.** -/
theorem text_eq_ok_iff {bs : List UInt8} {s : String} : text bs = .ok s ↔ bytes s = bs := by
  constructor
  · intro h
    unfold text at h
    cases hcs : charsFrom 0 bs with
    | error f => rw [hcs] at h; cases h
    | ok cs =>
      rw [hcs] at h
      cases h
      rw [bytes, String.toList_ofList, flatMap_encodeChar_of_charsFrom hcs]
  · rintro rfl
    exact text_bytes s

/-- Texts with the same bytes are the same. -/
theorem bytes_injective : Function.Injective bytes := fun s t h => by
  have hs := text_bytes s
  rw [h, text_bytes] at hs
  exact (Except.ok.inj hs).symm

@[simp] theorem bytes_inj {s t : String} : bytes s = bytes t ↔ s = t := bytes_injective.eq_iff

@[simp] theorem bytes_eq_nil {s : String} : bytes s = [] ↔ s = "" := by
  rw [← bytes_inj, show bytes "" = [] from rfl]

/-- A character of ASCII is one byte. -/
theorem length_encodeChar_of_le {c : Char} (h : c.toNat ≤ 127) : (encodeChar c).length = 1 := by
  have hascii : c.val ≤ 127 := UInt32.le_iff_toNat_le.2 h
  unfold encodeChar
  rw [String.length_utf8EncodeChar]
  exact if_pos hascii

end Utf8

end Onboarding
