import Mathlib.Data.List.TakeWhile
import Mathlib.Tactic.Common
import Onboarding.IpAddress
import Onboarding.Proofs.Results
import Onboarding.Proofs.Text.Split
/-!
# IP addresses — the usual form of a socket reads back as the socket

A socket that was read has bytes, pieces and a port of their sizes (`isSocket_of_parse?`), and
every such socket reads back from its usual form (`parse?_text`): the gap stands for the zeros
that were left out, wherever they stood, and the last two pieces may have become four bytes.
So the usual form is a form of the same socket, and no socket that can be read is one that a
server cannot listen at (`ListenAddress.parse?_eq_some_iff`).
-/

namespace Onboarding

/-! ## Digits -/

namespace Hex

variable {b n : Nat} {c : Char}

theorem value_digitChar : ∀ d < 16, Hex.value d.digitChar = some d := by decide

/-- Digits of a base up to sixteen are hexadecimal. -/
theorem isSome_value_of_mem_toDigits (hb : 1 < b) (hle : b ≤ 16) (hc : c ∈ Nat.toDigits b n) :
    (Hex.value c).isSome = true := by
  induction n using Nat.strongRecOn with
  | ind n ih =>
    rcases Nat.lt_or_ge n b with hlt | hge
    · rw [Nat.toDigits_of_lt_base hlt, List.mem_singleton] at hc
      rw [hc, value_digitChar n (by omega)]
      rfl
    · rw [Nat.toDigits_of_base_le hb hge, List.mem_append, List.mem_singleton] at hc
      rcases hc with hc | rfl
      · exact ih (n / b) (Nat.div_lt_self (by omega) hb) hc
      · have hmod : n % b < b := Nat.mod_lt n (by omega)
        rw [value_digitChar (n % b) (by omega)]
        rfl

/-- Numbers that are joined are spelled with digits and what joins them. -/
theorem mem_intercalate_toDigits (hb : 1 < b) (hle : b ≤ 16) {sep : Char} {ns : List Nat}
    (hc : c ∈ [sep].intercalate (ns.map (Nat.toDigits b))) :
    c = sep ∨ (Hex.value c).isSome = true := by
  induction ns with
  | nil => simp at hc
  | cons n ns ih =>
    have hdigit (hc : c ∈ Nat.toDigits b n) := isSome_value_of_mem_toDigits hb hle hc
    cases ns with
    | nil =>
      rw [List.map_singleton, List.intercalate_singleton] at hc
      exact .inr (hdigit hc)
    | cons m ns =>
      rw [List.map_cons, List.map_cons, List.intercalate_cons_cons, List.mem_append,
        List.mem_append, List.mem_singleton] at hc
      rcases hc with (hc | rfl) | hc
      · exact .inr (hdigit hc)
      · exact .inl rfl
      · exact ih hc

theorem not_mem_toDigits (hb : 1 < b) (hle : b ≤ 16) (hc : Hex.value c = none) :
    c ∉ Nat.toDigits b n := by
  intro hmem
  have hsome := isSome_value_of_mem_toDigits hb hle hmem
  rw [hc] at hsome
  cases hsome

/-- A number reads back from its hexadecimal digits. -/
theorem foldlM_value_toDigits (n : Nat) :
    (Nat.toDigits 16 n).foldlM (fun n c => (Hex.value c).map (16 * n + ·)) 0 = some n := by
  induction n using Nat.strongRecOn with
  | ind n ih =>
    rcases Nat.lt_or_ge n 16 with hlt | hge
    · rw [Nat.toDigits_of_lt_base hlt]
      simp [value_digitChar n hlt]
    · have hvalue := value_digitChar (n % 16) (Nat.mod_lt n (by omega))
      rw [Nat.toDigits_of_base_le (by omega) hge, List.foldlM_append,
        ih (n / 16) (Nat.div_lt_self (by omega) (by omega))]
      simp [hvalue, Nat.div_add_mod]

theorem value_lt {d : Nat} (h : Hex.value c = some d) : d < 16 := by
  unfold Hex.value at h
  have hle : ∀ a b : Char, a ≤ b → a.toNat ≤ b.toNat := fun a b hab => hab
  split at h
  · rename_i hc
    have := hle _ _ hc.2
    cases h
    have h9 : '9'.toNat = 57 := rfl
    omega
  · split at h
    · rename_i hc
      have := hle _ _ hc.2
      cases h
      have hf : 'f'.toNat = 102 := rfl
      omega
    · split at h
      · rename_i hc
        have := hle _ _ hc.2
        cases h
        have hf : 'F'.toNat = 70 := rfl
        omega
      · cases h

/-- Each hexadecimal digit makes room for one of sixteen. -/
theorem foldlM_value_lt {cs : List Char} {k : Nat}
    (h : cs.foldlM (fun n c => (Hex.value c).map (16 * n + ·)) k = some n) :
    n < (k + 1) * Nat.pow 16 cs.length := by
  induction cs generalizing k with
  | nil =>
    cases h
    exact Nat.lt_of_lt_of_eq (Nat.lt_succ_self n) (Nat.mul_one _).symm
  | cons c cs ih =>
    rw [List.foldlM_cons] at h
    obtain ⟨k', hk', hrest⟩ := Option.bind_eq_some_iff.1 h
    obtain ⟨d, hd, rfl⟩ := Option.map_eq_some_iff.1 hk'
    have hdigit := value_lt hd
    calc n < (16 * k + d + 1) * Nat.pow 16 cs.length := ih hrest
      _ ≤ ((k + 1) * 16) * Nat.pow 16 cs.length := Nat.mul_le_mul_right _ (by omega)
      _ = (k + 1) * (Nat.pow 16 cs.length * 16) := by rw [Nat.mul_assoc, Nat.mul_comm 16]

end Hex

/-- A number reads back from its decimal digits. -/
theorem decimalBelow?_toDigits {limit n : Nat} (h : n < limit) :
    decimalBelow? limit (Nat.toDigits 10 n) = some n := by
  have hdigits : (Nat.toDigits 10 n).all Char.isDigit = true :=
    List.all_eq_true.2 fun c hc => Nat.isDigit_of_mem_toDigits (by omega) (by omega) hc
  have hne : (Nat.toDigits 10 n).isEmpty = false := by simp [Nat.toDigits_ne_nil]
  unfold decimalBelow?
  rw [hne, hdigits, Nat.ofDigitChars_toDigits (by omega) (by omega), if_neg (by simp)]
  exact if_pos h

theorem lt_of_decimalBelow? {limit n : Nat} {cs : List Char} (h : decimalBelow? limit cs = some n) :
    n < limit := by
  unfold decimalBelow? at h
  split at h
  · cases h
  · dsimp only at h
    split at h
    · cases h
      assumption
    · cases h

namespace IpAddress

/-! ## Numbers between separators -/

/-- Bytes of an address. -/
def AreBytes (bs : List Nat) : Prop := ∀ b ∈ bs, b < 0x100

/-- Pieces of an address. -/
def ArePieces (ps : List Nat) : Prop := ∀ p ∈ ps, p < 0x10000

variable {n : Nat} {bs ps : List Nat} {cs : List Char}

theorem byte?_toDigits : ∀ n < 0x100, byte? (Nat.toDigits 10 n) = some n := by decide +kernel

theorem piece?_toDigits (h : n < 0x10000) : piece? (Nat.toDigits 16 n) = some n := by
  have hlength : (Nat.toDigits 16 n).length ≤ 4 :=
    (Nat.length_toDigits_le_iff (by omega) (by omega)).2 h
  unfold piece?
  rw [if_neg (by simp [Nat.toDigits_ne_nil]; omega)]
  exact Hex.foldlM_value_toDigits n

theorem lt_of_byte? (h : byte? cs = some n) : n < 0x100 := by
  unfold byte? at h
  split at h
  · cases h
  · exact lt_of_decimalBelow? h

theorem lt_of_piece? (h : piece? cs = some n) : n < 0x10000 := by
  unfold piece? at h
  split at h
  · cases h
  · rename_i hlength
    have hlength : cs.length ≤ 4 := by simp at hlength; exact hlength.2
    calc n < (0 + 1) * Nat.pow 16 cs.length := Hex.foldlM_value_lt h
      _ ≤ (0 + 1) * Nat.pow 16 4 :=
        Nat.mul_le_mul_left _ (Nat.pow_le_pow_right (by omega) hlength)

theorem toList_bytesText (bs : List Nat) :
    (bytesText bs).toList = ['.'].intercalate (bs.map (Nat.toDigits 10)) := by
  rw [bytesText, String.toList_intercalate, List.map_map]
  congr 1
  exact List.map_congr_left fun b _ => by simp

theorem toList_piecesText (ps : List Nat) :
    (piecesText ps).toList = [':'].intercalate (ps.map (Nat.toDigits 16)) := by
  rw [piecesText, String.toList_intercalate, List.map_map]
  congr 1
  exact List.map_congr_left fun b _ => by simp [Hex.ofNat]

/-- Four bytes read back from between their dots. -/
theorem bytes?_bytesText (hbs : AreBytes bs) (hlength : bs.length = 4) :
    bytes? (bytesText bs).toList = some bs := by
  have hsplit : splitAll '.' (bytesText bs).toList = bs.map (Nat.toDigits 10) := by
    rw [toList_bytesText]
    refine splitAll_intercalate '.' ?_ fun p hp => ?_
    · rw [ne_eq, List.map_eq_nil_iff]
      rintro rfl
      cases hlength
    · obtain ⟨b, -, rfl⟩ := List.mem_map.1 hp
      exact Hex.not_mem_toDigits (by omega) (by omega) (by decide)
  have hread : (bs.map (Nat.toDigits 10)).mapM byte? = some bs :=
    mapM_eq_some_iff.2 (List.forall₂_map_left_iff.2
      (List.forall₂_same.2 fun b hb => byte?_toDigits b (hbs b hb)))
  unfold bytes?
  rw [hsplit, hread]
  simp [hlength]

theorem areBytes_of_bytes? (h : bytes? cs = some bs) : AreBytes bs ∧ bs.length = 4 := by
  obtain ⟨hread, hlength⟩ := Option.filter_eq_some_iff.1 h
  refine ⟨fun b hb => ?_, by simpa using hlength⟩
  obtain ⟨p, -, hp⟩ := exists_of_mem_mapM hread hb
  exact lt_of_byte? hp

/-- The two last pieces read back from four bytes. -/
theorem bytePieces?_bytesText {x y : Nat} (hx : x < 0x10000) (hy : y < 0x10000) :
    bytePieces? (bytesText [x / 256, x % 256, y / 256, y % 256]).toList = some [x, y] := by
  have hbytes : AreBytes [x / 256, x % 256, y / 256, y % 256] := by
    intro b hb
    simp only [List.mem_cons, List.not_mem_nil, or_false] at hb
    omega
  rw [bytePieces?, bytes?_bytesText hbytes rfl]
  simp only [Nat.div_add_mod]

theorem arePieces_of_bytePieces? (h : bytePieces? cs = some ps) : ArePieces ps := by
  unfold bytePieces? at h
  split at h
  · rename_i a b c d hbytes
    obtain ⟨hbytes, -⟩ := areBytes_of_bytes? hbytes
    cases h
    simp only [AreBytes, ArePieces, List.mem_cons, List.not_mem_nil, or_false, forall_eq_or_imp,
      forall_eq] at hbytes ⊢
    omega
  · cases h

/-! ## The pieces on one side of the gap -/

theorem partPieces?_toDigits (hps : ArePieces ps) :
    partPieces? (ps.map (Nat.toDigits 16)) = some ps := by
  induction ps with
  | nil => rfl
  | cons p rest ih =>
    have hfirst := piece?_toDigits (hps p List.mem_cons_self)
    have hrest := ih fun q hq => hps q (List.mem_cons_of_mem p hq)
    cases rest with
    | nil =>
      have hdot : '.' ∉ Nat.toDigits 16 p := Hex.not_mem_toDigits (by omega) (by omega) (by decide)
      rw [List.map_singleton, partPieces?, if_neg hdot, hfirst]
      rfl
    | cons q rest =>
      rw [List.map_cons] at hrest ⊢
      rw [List.map_cons, partPieces?, hfirst]
      · rw [hrest]
        rfl
      · exact List.cons_ne_nil _ _

theorem arePieces_of_partPieces? {parts : List (List Char)} (h : partPieces? parts = some ps) :
    ArePieces ps := by
  fun_induction partPieces? parts generalizing ps with
  | case1 =>
    cases h
    nofun
  | case2 last _ => exact arePieces_of_bytePieces? h
  | case3 last _ =>
    obtain ⟨n, hn, rfl⟩ := Option.map_eq_some_iff.1 h
    intro p hp
    rw [List.mem_singleton.1 hp]
    exact lt_of_piece? hn
  | case4 p rest _ ih =>
    obtain ⟨n, hn, h⟩ := Option.bind_eq_some_iff.1 h
    obtain ⟨ns, hns, h⟩ := Option.bind_eq_some_iff.1 h
    cases h
    intro q hq
    rcases List.mem_cons.1 hq with rfl | hq
    · exact lt_of_piece? hn
    · exact ih hns q hq

theorem colon_not_mem_toDigits (n : Nat) : ':' ∉ Nat.toDigits 16 n :=
  Hex.not_mem_toDigits (by omega) (by omega) (by decide)

theorem side?_piecesText (hps : ArePieces ps) : side? (piecesText ps).toList = some ps := by
  rw [toList_piecesText]
  cases ps with
  | nil => rfl
  | cons p rest =>
    have hparts : (p :: rest).map (Nat.toDigits 16) ≠ [] := List.cons_ne_nil _ _
    have hsplit := splitAll_intercalate ':' hparts fun q hq => by
      obtain ⟨n, -, rfl⟩ := List.mem_map.1 hq
      exact colon_not_mem_toDigits n
    have hne : [':'].intercalate ((p :: rest).map (Nat.toDigits 16)) ≠ [] := by
      intro hnil
      rw [hnil] at hsplit
      exact Nat.toDigits_ne_nil (List.cons.inj hsplit).1.symm
    rw [side?, if_neg (by simpa using hne), hsplit]
    exact partPieces?_toDigits hps

theorem arePieces_of_side? (h : side? cs = some ps) : ArePieces ps := by
  unfold side? at h
  split at h
  · cases h
    nofun
  · exact arePieces_of_partPieces? h

/-! ## Between colons -/

theorem toList_piecesText_cons (p q : Nat) (rest : List Nat) :
    (piecesText (p :: q :: rest)).toList =
      Nat.toDigits 16 p ++ ':' :: (piecesText (q :: rest)).toList := by
  simp [toList_piecesText, List.intercalate_cons_cons]

theorem exists_front_piecesText (p : Nat) (rest : List Nat) :
    ∃ d ds, (piecesText (p :: rest)).toList = d :: ds ∧ d ≠ ':' := by
  obtain ⟨d, ds, hds⟩ := List.exists_cons_of_ne_nil (Nat.toDigits_ne_nil (n := p) (b := 16))
  have hd : d ≠ ':' := fun e => colon_not_mem_toDigits p (by simp [hds, e])
  cases rest with
  | nil => exact ⟨d, ds, by simp [toList_piecesText, hds], hd⟩
  | cons q rest => exact ⟨d, _, by rw [toList_piecesText_cons, hds, List.cons_append], hd⟩

theorem dot_not_mem_piecesText (ps : List Nat) : '.' ∉ (piecesText ps).toList := by
  intro h
  rw [toList_piecesText] at h
  rcases Hex.mem_intercalate_toDigits (by omega) (by omega) h with h | h <;> cases h

/-! ## The gap -/

theorem splitGap?_append {p : List Char} (hp : ':' ∉ p) (r : List Char) :
    splitGap? (p ++ r) = (splitGap? r).map fun (a, b) => (p ++ a, b) := by
  induction p with
  | nil => simp
  | cons c p ih =>
    have hc : c ≠ ':' := fun e => hp (e ▸ List.mem_cons_self)
    rw [List.cons_append, splitGap?, ih fun h => hp (List.mem_cons_of_mem c h), Option.map_map]
    · rfl
    · exact fun _ e => absurd e hc

/-- Pieces between single colons have no gap in them. -/
theorem splitGap?_piecesText (ps : List Nat) (r : List Char) :
    splitGap? ((piecesText ps).toList ++ r) =
      (splitGap? r).map fun (a, b) => ((piecesText ps).toList ++ a, b) := by
  induction ps with
  | nil => simp [piecesText]
  | cons p rest ih =>
    have hp := colon_not_mem_toDigits p
    cases rest with
    | nil =>
      have hsingle : (piecesText [p]).toList = Nat.toDigits 16 p := by simp [toList_piecesText]
      rw [hsingle]
      exact splitGap?_append hp r
    | cons q rest =>
      -- the colon between two pieces stands in front of a digit
      obtain ⟨d, ds, hds, hd⟩ := exists_front_piecesText q rest
      have hcolon : splitGap? (':' :: ((piecesText (q :: rest)).toList ++ r)) =
          (splitGap? ((piecesText (q :: rest)).toList ++ r)).map fun (a, b) => (':' :: a, b) := by
        rw [hds, List.cons_append, splitGap?]
        rintro _ - h
        exact hd (List.cons.inj h).1
      rw [toList_piecesText_cons, List.append_assoc, List.cons_append, splitGap?_append hp, hcolon,
        ih, Option.map_map, Option.map_map]
      congr 1
      funext ⟨a, b⟩
      simp

/-- **The gap is found again** between the pieces on either side. -/
theorem splitGap?_gap (ps : List Nat) (r : List Char) :
    splitGap? ((piecesText ps).toList ++ ':' :: ':' :: r) = some ((piecesText ps).toList, r) := by
  rw [splitGap?_piecesText, splitGap?, Option.map_some]
  simp only [List.append_nil]

theorem splitGap?_eq_none (ps : List Nat) : splitGap? (piecesText ps).toList = none := by
  have h := splitGap?_piecesText ps []
  rwa [List.append_nil, splitGap?, Option.map_none] at h

/-- A run of zeros stands where it is found. -/
theorem longestRun_eq (start : Nat) (ps : List Nat) :
    ∃ before after, ps = before ++ List.replicate (longestRun start ps).2 0 ++ after ∧
      (longestRun start ps).1 = start + before.length := by
  induction ps generalizing start with
  | nil => exact ⟨[], [], rfl, rfl⟩
  | cons p rest ih =>
    rw [longestRun]
    split
    · obtain ⟨before, after, hrest, hstart⟩ := ih (start + 1)
      refine ⟨p :: before, after, ?_, ?_⟩
      · rw [List.cons_append, List.cons_append, ← hrest]
      · rw [hstart, List.length_cons]
        omega
    · refine ⟨[], (p :: rest).dropWhile (· = 0), ?_, rfl⟩
      have hzeros : (p :: rest).takeWhile (· = 0) = List.replicate (zeros (p :: rest)) 0 :=
        List.eq_replicate_iff.2 ⟨rfl, fun q hq => by simpa using List.mem_takeWhile_imp hq⟩
      rw [List.nil_append, ← hzeros, List.takeWhile_append_dropWhile]

/-! ## The usual form -/

theorem pieces?_gap {before after : List Nat} {zeros : Nat} (hbefore : ArePieces before)
    (hside : side? cs = some after) (hzeros : 0 < zeros)
    (hlength : before.length + zeros + after.length = 8) :
    pieces? ((piecesText before).toList ++ ':' :: ':' :: cs) =
      some (before ++ List.replicate zeros 0 ++ after) := by
  have hdot : '.' ∉ (piecesText before).toList := dot_not_mem_piecesText before
  have hroom : before.length + after.length < 8 := by omega
  have hgap : 8 - before.length - after.length = zeros := by omega
  unfold pieces?
  rw [splitGap?_gap]
  simp only [hdot, if_false, side?_piecesText hbefore, hside, hroom, if_true, hgap]

theorem colon_not_mem_bytesText (bs : List Nat) : ':' ∉ (bytesText bs).toList := by
  intro h
  rw [toList_bytesText] at h
  rcases Hex.mem_intercalate_toDigits (by omega) (by omega) h with h | h <;> cases h

/-- Two last pieces read back where they have become four bytes. -/
theorem side?_mapped {x y : Nat} (hx : x < 0x10000) (hy : y < 0x10000) :
    side? (['f', 'f', 'f', 'f', ':'] ++
      (bytesText [x / 256, x % 256, y / 256, y % 256]).toList) = some [0xFFFF, x, y] := by
  have hread := bytePieces?_bytesText hx hy
  have hcolon := colon_not_mem_bytesText [x / 256, x % 256, y / 256, y % 256]
  have hdot : '.' ∈ (bytesText [x / 256, x % 256, y / 256, y % 256]).toList := by
    simp [toList_bytesText, List.intercalate_cons_cons]
  generalize (bytesText [x / 256, x % 256, y / 256, y % 256]).toList = bytes at *
  have hjoined : ['f', 'f', 'f', 'f', ':'] ++ bytes =
      [':'].intercalate [['f', 'f', 'f', 'f'], bytes] := by
    simp [List.intercalate_cons_cons]
  have hsplit := splitAll_intercalate ':' (List.cons_ne_nil ['f', 'f', 'f', 'f'] [bytes])
    (by simp [hcolon])
  have hpiece : piece? ['f', 'f', 'f', 'f'] = some 0xFFFF := by decide
  have hlast : partPieces? [bytes] = some [x, y] := by rw [partPieces?, if_pos hdot, hread]
  rw [side?, if_neg (by simp), hjoined, hsplit, partPieces?, hpiece, hlast]
  · rfl
  · exact List.cons_ne_nil _ _

/-- **Eight pieces read back from their usual form.** -/
theorem pieces?_text (hps : ArePieces ps) (hlength : ps.length = 8) :
    pieces? (text (.v6 ps)).toList = some ps := by
  unfold text
  split
  · cases ‹_›
  · rename_i x y heq
    cases heq
    have hx : x < 0x10000 := hps x (by simp)
    have hy : y < 0x10000 := hps y (by simp)
    have hread : pieces? ((piecesText []).toList ++ _) = some ([] ++ List.replicate 5 0 ++ _) :=
      pieces?_gap nofun (side?_mapped hx hy) (by omega) rfl
    rw [String.toList_append]
    exact hread
  · rename_i heq
    cases heq
    obtain ⟨before, after, hsplit, hstart⟩ := longestRun_eq 0 ps
    generalize longestRun 0 ps = run at hsplit hstart
    obtain ⟨start, zeros⟩ := run
    dsimp only at hsplit hstart ⊢
    split
    · rw [pieces?, splitGap?_eq_none, side?_piecesText hps]
      simp [hlength]
    · have hparts : ArePieces before ∧ ArePieces after := by
        refine ⟨fun q hq => hps q ?_, fun q hq => hps q ?_⟩ <;> rw [hsplit] <;> simp [hq]
      have htotal : before.length + zeros + after.length = 8 := by
        rw [← hlength, hsplit, List.length_append, List.length_append, List.length_replicate]
      have hstart : start = before.length := by omega
      have hbefore : ps.take start = before := by
        rw [hsplit, List.append_assoc, hstart, List.take_left]
      have hafter : ps.drop (start + zeros) = after := by
        rw [hsplit]
        exact List.drop_left' (by simp [hstart])
      have hread := pieces?_gap hparts.1 (side?_piecesText hparts.2) (by omega) htotal
      rw [hbefore, hafter, String.toList_append, String.toList_append, List.append_assoc]
      exact hread.trans (congrArg some hsplit.symm)

theorem arePieces_of_pieces? (h : pieces? cs = some ps) : ArePieces ps ∧ ps.length = 8 := by
  unfold pieces? at h
  split at h
  · obtain ⟨hside, hlength⟩ := Option.filter_eq_some_iff.1 h
    exact ⟨arePieces_of_side? hside, by simpa using hlength⟩
  · split at h
    · cases h
    · split at h
      · rename_i a b ha hb
        split at h
        · cases h
          refine ⟨fun p hp => ?_, by simp; omega⟩
          simp only [List.mem_append, List.mem_replicate] at hp
          rcases hp with (hp | ⟨-, rfl⟩) | hp
          · exact arePieces_of_side? ha p hp
          · omega
          · exact arePieces_of_side? hb p hp
        · cases h
      · cases h

/-- A character of an address. -/
def isHostChar (c : Char) : Bool := c = ':' || c = '.' || (Hex.value c).isSome

/-- An address of pieces is spelled with digits, colons and dots. -/
theorem isHostChar_of_mem_text {c : Char} (hc : c ∈ (text (.v6 ps)).toList) :
    isHostChar c = true := by
  have hpieces {ps : List Nat} (hc : c ∈ (piecesText ps).toList) : isHostChar c = true := by
    rw [toList_piecesText] at hc
    rcases Hex.mem_intercalate_toDigits (by omega) (by omega) hc with rfl | hdigit
    · rfl
    · simp [isHostChar, hdigit]
  have hbytes {bs : List Nat} (hc : c ∈ (bytesText bs).toList) : isHostChar c = true := by
    rw [toList_bytesText] at hc
    rcases Hex.mem_intercalate_toDigits (by omega) (by omega) hc with rfl | hdigit
    · rfl
    · simp [isHostChar, hdigit]
  have hmark : "::ffff:".toList.all isHostChar = true := by decide
  have hgap : "::".toList.all isHostChar = true := by decide
  unfold text at hc
  split at hc
  · exact hbytes hc
  · rw [String.toList_append, List.mem_append] at hc
    exact hc.elim (List.all_eq_true.1 hmark c) hbytes
  · dsimp only at hc
    split at hc
    · exact hpieces hc
    · rw [String.toList_append, String.toList_append, List.mem_append, List.mem_append] at hc
      exact hc.elim (Or.rec hpieces (List.all_eq_true.1 hgap c)) hpieces

end IpAddress

/-! ## Sockets -/

open IpAddress

namespace SocketAddress

/-- A socket whose numbers have their sizes. -/
inductive IsSocket : SocketAddress → Prop
  | v4 {a b c d port : Nat} : AreBytes [a, b, c, d] → port < UInt16.size →
      IsSocket { host := .v4 a b c d, port }
  | v6 {ps : List Nat} {scope port : Nat} : ArePieces ps → ps.length = 8 →
      scope < UInt32.size → port < UInt16.size → IsSocket { host := .v6 ps, scope, port }

variable {text : String} {a : SocketAddress} {cs : List Char} {n : Nat}

theorem port?_eq {port : Nat} (h : port < UInt16.size) :
    port? (':' :: Nat.toDigits 10 port) = some port :=
  decimalBelow?_toDigits h

theorem lt_of_port? (h : port? cs = some n) : n < UInt16.size := by
  unfold port? at h
  split at h
  · exact lt_of_decimalBelow? h
  · cases h

theorem isPieces_of_bracketed? {ps : List Nat} {scope : Nat} {rest : List Char}
    (h : bracketed? cs = some (ps, scope, rest)) :
    ArePieces ps ∧ ps.length = 8 ∧ scope < UInt32.size := by
  unfold bracketed? at h
  split at h
  · cases h
  · split at h
    · obtain ⟨ps', hps, heq⟩ := Option.map_eq_some_iff.1 h
      cases heq
      obtain ⟨hpieces, hlength⟩ := arePieces_of_pieces? hps
      exact ⟨hpieces, hlength, by decide⟩
    · obtain ⟨ps', hps, h⟩ := Option.bind_eq_some_iff.1 h
      obtain ⟨scope', hscope, heq⟩ := Option.bind_eq_some_iff.1 h
      cases heq
      obtain ⟨hpieces, hlength⟩ := arePieces_of_pieces? hps
      exact ⟨hpieces, hlength, lt_of_decimalBelow? hscope⟩

/-- **A socket that is read has numbers of their sizes.** -/
theorem isSocket_of_parse? (h : parse? text = some a) : IsSocket a := by
  unfold parse? at h
  split at h
  · obtain ⟨⟨ps, scope, rest⟩, hhost, h⟩ := Option.bind_eq_some_iff.1 h
    obtain ⟨port, hport, heq⟩ := Option.bind_eq_some_iff.1 h
    cases heq
    obtain ⟨hpieces, hlength, hscope⟩ := isPieces_of_bracketed? hhost
    exact .v6 hpieces hlength hscope (lt_of_port? hport)
  · split at h
    · rename_i hbytes
      obtain ⟨port, hport, heq⟩ := Option.bind_eq_some_iff.1 h
      cases heq
      exact .v4 (areBytes_of_bytes? hbytes).1 (lt_of_port? hport)
    · cases h

/-- A text without the bracket is read as four bytes and a port. -/
theorem parse?_v4 {a b c d port : Nat} {host : List Char} (hbracket : '[' ∉ host)
    (hcolon : ':' ∉ host) (hhost : bytes? host = some [a, b, c, d]) (hport : port < UInt16.size)
    (htext : text.toList = host ++ ':' :: Nat.toDigits 10 port) :
    parse? text = some { host := .v4 a b c d, port } := by
  have hrun : ∀ c ∈ host, decide (c ≠ ':') = true := fun c hc =>
    decide_eq_true fun e => hcolon (e ▸ hc)
  have hstop : ∀ c ∈ (':' :: Nat.toDigits 10 port).head?, decide (c ≠ ':') = false := by simp
  unfold parse?
  rw [htext]
  split
  · rename_i r heq
    have hmem : '[' ∈ host ++ ':' :: Nat.toDigits 10 port := by simp [heq]
    rw [List.mem_append, List.mem_cons] at hmem
    rcases hmem with hmem | hmem | hmem
    · exact absurd hmem hbracket
    · cases hmem
    · exact absurd hmem (Hex.not_mem_toDigits (by omega) (by omega) (by decide))
  · rw [takeWhile_append_stop hrun hstop, dropWhile_append_stop hrun hstop, hhost]
    simp only [port?_eq hport]
    rfl

/-- What stands between the brackets is an address and its scope. -/
theorem bracketed?_eq {ps : List Nat} {scope : Nat} {host : List Char}
    (hhost : ∀ c ∈ host, isHostChar c = true) (hps : pieces? host = some ps)
    (hscope : scope < UInt32.size) (rest : List Char) :
    bracketed? (host ++ (if scope = 0 then [] else '%' :: Nat.toDigits 10 scope) ++ ']' :: rest) =
      some (ps, scope, rest) := by
  have hpercent : '%' ∉ host := fun h => nomatch hhost _ h
  have hbracket : ']' ∉ host := fun h => nomatch hhost _ h
  unfold bracketed?
  by_cases hzero : scope = 0
  · rw [if_pos hzero, List.append_nil, splitFirst?_append hbracket]
    simp only [splitFirst?_of_not_mem hpercent, hps, hzero, Option.map_some]
  · have hinner : ']' ∉ host ++ '%' :: Nat.toDigits 10 scope := by
      have hdigits : ']' ∉ Nat.toDigits 10 scope :=
        Hex.not_mem_toDigits (by omega) (by omega) (by decide)
      simp [hbracket, hdigits]
    rw [if_neg hzero, splitFirst?_append hinner]
    simp only [splitFirst?_append hpercent, hps, decimalBelow?_toDigits hscope]
    rfl

/-- **A socket reads back from its usual form.** -/
theorem IsSocket.parse?_text (h : IsSocket a) : parse? a.text = some a := by
  cases h with
  | @v4 a b c d port hbytes hport =>
    have htext : (SocketAddress.text { host := .v4 a b c d, port }).toList =
        (bytesText [a, b, c, d]).toList ++ ':' :: Nat.toDigits 10 port := by
      simp [SocketAddress.text, IpAddress.text, toString]
    have hbracket : '[' ∉ (bytesText [a, b, c, d]).toList := by
      intro hc
      rw [toList_bytesText] at hc
      rcases Hex.mem_intercalate_toDigits (by omega) (by omega) hc with h | h <;> cases h
    exact parse?_v4 hbracket (colon_not_mem_bytesText _) (bytes?_bytesText hbytes rfl) hport htext
  | @v6 ps scope port hps hlength hscope hport =>
    have htext : (SocketAddress.text { host := .v6 ps, scope, port }).toList =
        '[' :: ((IpAddress.text (.v6 ps)).toList ++
          (if scope = 0 then [] else '%' :: Nat.toDigits 10 scope) ++
          ']' :: ':' :: Nat.toDigits 10 port) := by
      by_cases hzero : scope = 0 <;> simp [SocketAddress.text, toString, hzero]
    have hhost := bracketed?_eq (fun _ => isHostChar_of_mem_text) (pieces?_text hps hlength) hscope
      (':' :: Nat.toDigits 10 port)
    unfold parse?
    rw [htext]
    simp only [hhost, Option.bind_eq_bind, Option.bind_some, port?_eq hport]
    rfl

/-- The usual form is a form of the same socket. -/
theorem parse?_text (h : parse? text = some a) : parse? a.text = some a :=
  (isSocket_of_parse? h).parse?_text

/-- The usual form of the usual form is that form. -/
theorem canonical?_text (h : parse? text = some a) : canonical? a.text = some a.text := by
  rw [canonical?, parse?_text h, Option.map_some]

end SocketAddress

/-- **A server can listen at every socket that can be read**, and at no other. -/
theorem ListenAddress.parse?_eq_some_iff {text : String} {l : ListenAddress} :
    ListenAddress.parse? text = some l ↔
      ∃ a, SocketAddress.parse? text = some a ∧ a.text = l.text := by
  rw [ListenAddress.parse?]
  constructor
  · intro h
    split at h
    · cases h
    · rename_i t ht
      split at h
      · cases h
        exact Option.map_eq_some_iff.1 ht
      · cases h
  · rintro ⟨a, ha, hal⟩
    have ht : SocketAddress.canonical? text = some l.text := by
      rw [SocketAddress.canonical?, ha, Option.map_some, hal]
    simp only [ht]
    exact dif_pos l.isCanonical

/-- The usual form of a socket that was read is one to listen at. -/
theorem ListenAddress.exists_text_eq {text : String} {a : SocketAddress}
    (h : SocketAddress.parse? text = some a) : ∃ l : ListenAddress, l.text = a.text :=
  ⟨⟨a.text, SocketAddress.canonical?_text h⟩, rfl⟩

end Onboarding
