import Onboarding.Bech32
import Onboarding.Owner
import Onboarding.Proofs.Text.Utf8
import Onboarding.Randomness
/-!
# Owners and codes — texts of known lengths

Hashes and drawn codes are hexadecimal and so have two bytes of text for each byte. An
owner made from an email or a wallet has the length of a hash (`Owner.IsHash`), and
this is what lets a store put owners into keys and cut them out again.
-/

namespace Onboarding

/-- A list of equally long pieces is as long as their number times their length. -/
theorem length_flatMap_of_length_eq {α β : Type} {f : α → List β} {k : Nat} {as : List α}
    (h : ∀ a ∈ as, (f a).length = k) : (as.flatMap f).length = as.length * k := by
  induction as with
  | nil => simp
  | cons a r ih =>
    have ha := h a (List.mem_cons_self ..)
    have hr := ih fun b hb => h b (List.mem_cons_of_mem _ hb)
    rw [List.flatMap_cons, List.length_append, ha, hr, List.length_cons, Nat.succ_mul, Nat.add_comm]

/-- A text that is not empty takes bytes. -/
theorem byteLength_pos {s : String} (h : s ≠ "") : 0 < byteLength s := by
  refine List.length_pos_iff.2 ?_
  rwa [Ne, Utf8.bytes_eq_nil]

/-! ## Hexadecimal -/

namespace Hex

/-- A digit is one byte. -/
theorem length_encodeChar_digit {n : Nat} (h : n < 16) :
    (Utf8.encodeChar (digit n)).length = 1 := by
  -- the sixteen digits are tried one by one
  have hall : ∀ i : Fin 16, (Utf8.encodeChar (digit i.val)).length = 1 := by decide
  exact hall ⟨n, h⟩

/-- **A byte takes two bytes of text.** -/
theorem byteLength_encode (bs : List UInt8) : byteLength (encode bs) = 2 * bs.length := by
  unfold byteLength Utf8.bytes encode
  -- two digits for each byte, and one byte for each digit
  rw [String.toList_ofList, length_flatMap_of_length_eq (k := 1), Nat.mul_one,
    length_flatMap_of_length_eq (k := 2) (fun _ _ => rfl), Nat.mul_comm]
  intro c hc
  obtain ⟨b, -, hb⟩ := List.mem_flatMap.1 hc
  have hlt := b.toNat_lt
  simp only [List.mem_cons, List.not_mem_nil, or_false] at hb
  rcases hb with rfl | rfl
  · exact length_encodeChar_digit (by omega)
  · exact length_encodeChar_digit (by omega)

theorem length_encode (bs : List UInt8) : (encode bs).toList.length = 2 * bs.length := by
  unfold encode
  rw [String.toList_ofList, length_flatMap_of_length_eq (k := 2) (fun _ _ => rfl), Nat.mul_comm]

theorem isHexDigit_digit {n : Nat} (h : n < 16) : Owner.isHexDigit (digit n) = true := by
  have hall : ∀ i : Fin 16, Owner.isHexDigit (digit i.val) = true := by decide
  exact hall ⟨n, h⟩

theorem isHexDigit_encode (bs : List UInt8) :
    ∀ c ∈ (encode bs).toList, Owner.isHexDigit c = true := by
  intro c hc
  unfold encode at hc
  rw [String.toList_ofList] at hc
  obtain ⟨b, -, hb⟩ := List.mem_flatMap.1 hc
  have hlt := b.toNat_lt
  simp only [List.mem_cons, List.not_mem_nil, or_false] at hb
  rcases hb with rfl | rfl
  · exact isHexDigit_digit (by omega)
  · exact isHexDigit_digit (by omega)

theorem digit_inj {m n : Nat} (hm : m < 16) (hn : n < 16) (h : digit m = digit n) : m = n := by
  have hall : ∀ i j : Fin 16, digit i.val = digit j.val → i.val = j.val := by decide
  exact hall ⟨m, hm⟩ ⟨n, hn⟩ h

/-- **Different bytes are written differently.** -/
theorem encode_injective : Function.Injective encode := by
  intro bs bs' h
  replace h := String.ofList_injective h
  induction bs generalizing bs' with
  | nil =>
    cases bs' with
    | nil => rfl
    | cons _ _ => cases h
  | cons b bs ih =>
    cases bs' with
    | nil => cases h
    | cons b' bs' =>
      obtain ⟨hhigh, hrest⟩ := List.cons.inj h
      obtain ⟨hlow, htail⟩ := List.cons.inj hrest
      have hb := b.toNat_lt
      have hb' := b'.toNat_lt
      have hdiv := digit_inj (by omega) (by omega) hhigh
      have hmod := digit_inj (by omega) (by omega) hlow
      have heq : b.toNat = b'.toNat := by omega
      rw [UInt8.toNat_inj.1 heq, ih htail]

end Hex

/-! ## Owners -/

theorem length_blake2b128 (message : List UInt8) : (blake2b128 message).length = 16 := by
  unfold blake2b128 Blake2b.digest
  rw [List.length_take, length_flatMap_of_length_eq (k := 8) (fun _ _ => length_leBytes 8 _),
    Vector.length_toList]
  rfl

namespace Owner

/-- The text of an owner is as long as a hash. -/
def IsHash (o : Owner) : Prop := byteLength o.text = hexLength

instance (o : Owner) : Decidable o.IsHash := inferInstanceAs (Decidable (_ = _))

theorem isHash_ofEmail (email : String) : (ofEmail email).IsHash := by
  unfold IsHash ofEmail
  rw [Hex.byteLength_encode, length_blake2b128]
  rfl

theorem isHash_ofAddress (address : String) : (ofAddress address).IsHash := by
  unfold IsHash ofAddress
  rw [Hex.byteLength_encode, length_blake2b128]
  rfl

/-- What is taken for an owner has the length of a hash. -/
theorem isHash_of_parse {text : String} {o : Owner} (h : parse text = some o) : o.IsHash := by
  unfold parse at h
  split at h <;> cases h
  rename_i hform
  obtain ⟨hlength, hdigits⟩ := hform
  unfold IsHash byteLength Utf8.bytes
  rw [length_flatMap_of_length_eq (k := 1), Nat.mul_one, hlength]
  intro c hc
  -- the digits of a hash are characters of ASCII
  have hdigit := List.all_eq_true.1 hdigits c hc
  have hle : ∀ d : Char, d.toNat ≤ 127 → c ≤ d → c.toNat ≤ 127 := fun d hd hcd =>
    Nat.le_trans (UInt32.le_iff_toNat_le.1 hcd) hd
  simp only [isHexDigit, Bool.or_eq_true, Bool.and_eq_true, decide_eq_true_eq] at hdigit
  rcases hdigit with ⟨-, hnine⟩ | ⟨-, hf⟩
  · exact Utf8.length_encodeChar_of_le (hle '9' (by decide) hnine)
  · exact Utf8.length_encodeChar_of_le (hle 'f' (by decide) hf)

theorem IsHash.text_ne {o : Owner} (h : o.IsHash) : o.text ≠ "" := by
  intro he
  rw [IsHash, he] at h
  exact absurd h (by decide)

/-- Owners with the same text are the same. -/
theorem text_injective : Function.Injective text := fun o p h => by
  cases o; cases p; exact congrArg Owner.mk h

@[simp] theorem text_inj {o p : Owner} : o.text = p.text ↔ o = p := text_injective.eq_iff

end Owner

/-! ## Codes -/

namespace Randomness

theorem length_draw {n : Nat} {g g' : Randomness} {bytes : List UInt8}
    (h : g.draw n = (.ok bytes, g')) : bytes.length = n := by
  unfold draw at h
  split at h <;> cases h
  · simp [stretch]
  · simp [bigEndian]

theorem byteLength_drawCode {n : Nat} {g g' : Randomness} {code : String}
    (h : g.drawCode n = (.ok code, g')) : byteLength code = 2 * n := by
  unfold drawCode at h
  split at h
  · rename_i bytes _ hdraw
    cases h
    rw [Hex.byteLength_encode, length_draw hdraw]
  · cases h

end Randomness

/-! ## Two owners -/

namespace Sample

/-- An owner, and another one. -/
def first : Owner := ⟨"aaaaaaaaaaaaaaaaaaaaaaaaaaaaaaaa"⟩

def second : Owner := ⟨"bbbbbbbbbbbbbbbbbbbbbbbbbbbbbbbb"⟩

end Sample

/-! ## Addresses -/

/-- Addresses with the same text are the same. -/
theorem WalletAddress.text_injective : Function.Injective WalletAddress.text := fun a b h => by
  cases a; cases b; exact congrArg WalletAddress.mk h

@[simp] theorem WalletAddress.text_inj {a b : WalletAddress} : a.text = b.text ↔ a = b :=
  WalletAddress.text_injective.eq_iff

/-- An address is not empty and not longer than addresses may be. -/
theorem Bech32.byteLength_of_validate {address expected : String}
    (h : Bech32.validate address expected = .ok ()) :
    0 < byteLength address ∧ byteLength address ≤ Bech32.maxLength := by
  unfold Bech32.validate at h
  simp only at h
  split at h
  · cases h
  · rename_i hlen
    refine ⟨byteLength_pos ?_, by omega⟩
    -- an empty address has no separator
    rintro rfl
    exact absurd h (by simp [splitLast?])

end Onboarding
