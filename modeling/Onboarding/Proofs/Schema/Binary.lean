import Onboarding.Proofs.Text.Utf8
import Onboarding.Schema.Binary
/-!
# Binary records — a value is read back from its bytes

Lengths are stored in words, so a value comes back only if its texts, lists and counts
fit them: `Schema.Fits`. Under that condition `Schema.decode_encode` reads a value off
the front of its bytes, by recursion on the schema, and leaves what follows.
-/

namespace Onboarding

mutual

/-- The lengths and counts in a value fit the numbers they are stored in. -/
def Schema.Fits : {α : Type} → Schema α → α → Prop
  | _, .word, _ => True
  | _, .count, n => n < UInt64.size
  | _, .text, s => byteLength s < UInt64.size
  | _, .choice _, i => i.val < UInt32.size
  | _, .option _, none => True
  | _, .option item, some a => item.Fits a
  | _, .list item, as => as.length < UInt64.size ∧ ∀ a ∈ as, item.Fits a
  | _, .record fields, a => fields.Fits a
  | _, .via base _ get _ _, b => base.Fits (get b)

/-- The same for the members of a record. -/
def Fields.Fits : {α : Type} → Fields α → α → Prop
  | _, .done, () => True
  | _, .field _ item _ rest, (a, b) => item.Fits a ∧ rest.Fits b

end

namespace Schema

theorem takeNat_leBytes_append {k n : Nat} (h : n < Nat.pow 256 k) (bs : List UInt8) :
    takeNat k (leBytes k n ++ bs) = .ok (n, bs) := by
  rw [takeNat, if_neg (by simp), List.take_left' (length_leBytes k n),
    List.drop_left' (length_leBytes k n), leNat_leBytes h]

theorem takeText_append {s : String} (h : byteLength s < UInt64.size) (bs : List UInt8) :
    takeText (leBytes 8 (byteLength s) ++ Utf8.bytes s ++ bs) = .ok (s, bs) := by
  have hlen : (Utf8.bytes s).length = byteLength s := rfl
  rw [takeText, List.append_assoc, takeNat_leBytes_append h]
  simp only
  rw [if_neg (by simp [hlen]), List.take_left' hlen, List.drop_left' hlen, Utf8.text_bytes]

/-- Items are read back one after the other if each is. -/
theorem takeMany_flatMap {α : Type} {item : List UInt8 → Except BinaryFault (α × List UInt8)}
    {encode : α → List UInt8} {as : List α}
    (h : ∀ a ∈ as, ∀ bs, item (encode a ++ bs) = .ok (a, bs)) (bs : List UInt8) :
    takeMany item as.length (as.flatMap encode ++ bs) = .ok (as, bs) := by
  induction as with
  | nil => rfl
  | cons a r ih =>
    have ha := h a (List.mem_cons_self ..) (r.flatMap encode ++ bs)
    have hr := ih fun b hb => h b (List.mem_cons_of_mem _ hb)
    rw [List.flatMap_cons, List.append_assoc, List.length_cons, takeMany, ha]
    simp only [hr]

end Schema

mutual

/-- **A value is read off the front of its bytes**, and what follows it is left. -/
theorem Schema.decode_encode : {α : Type} → (s : Schema α) → (a : α) → s.Fits a →
    (bs : List UInt8) → s.decode (s.encode a ++ bs) = .ok (a, bs)
  | _, .word, n, _, bs => by
    have hn : n.toNat < Nat.pow 256 8 := n.toNat_lt
    rw [Schema.encode, Schema.decode, Schema.takeNat_leBytes_append hn]
    simp [Except.map]
  | _, .count, n, h, bs => by
    rw [Schema.encode, Schema.decode, Schema.takeNat_leBytes_append h]
  | _, .text, s, h, bs => by
    rw [Schema.encode, Schema.decode, Schema.takeText_append h]
  | _, .choice names, i, h, bs => by
    rw [Schema.encode, Schema.decode, Schema.takeNat_leBytes_append h]
    simp
  | _, .option item, none, _, bs => by
    simp [Schema.encode, Schema.decode]
  | _, .option item, some a, h, bs => by
    have ih := Schema.decode_encode item a h bs
    simp [Schema.encode, Schema.decode, ih, Except.map]
  | _, .list item, as, h, bs => by
    have ih := fun a (ha : a ∈ as) => Schema.decode_encode item a (h.2 a ha)
    rw [Schema.encode, Schema.decode, List.append_assoc, Schema.takeNat_leBytes_append h.1]
    exact Schema.takeMany_flatMap ih bs
  | _, .record fields, a, h, bs => by
    rw [Schema.encode, Schema.decode, Fields.decode_encode fields a h]
  | _, .via base make get _ make_get, b, h, bs => by
    have ih := Schema.decode_encode base (get b) h bs
    rw [Schema.encode, Schema.decode, ih]
    simp [Except.map, make_get]

/-- The same for the members of a record. -/
theorem Fields.decode_encode : {α : Type} → (fs : Fields α) → (a : α) → fs.Fits a →
    (bs : List UInt8) → fs.decode (fs.encode a ++ bs) = .ok (a, bs)
  | _, .done, (), _, bs => by
    rw [Fields.encode, Fields.decode, List.nil_append]
  | _, .field _ item _ rest, (a, b), h, bs => by
    have ha := Schema.decode_encode item a h.1 (rest.encode b ++ bs)
    have hb := Fields.decode_encode rest b h.2 bs
    rw [Fields.encode, Fields.decode, List.append_assoc, ha]
    simp [hb, Except.map]

end

/-- **Reading undoes writing**, for a value that fits. -/
theorem Schema.read_encode {α : Type} (s : Schema α) {a : α} (h : s.Fits a) :
    s.read (s.encode a) = .ok a := by
  have hd := s.decode_encode a h []
  rw [List.append_nil] at hd
  rw [Schema.read, hd]
  rfl

end Onboarding
