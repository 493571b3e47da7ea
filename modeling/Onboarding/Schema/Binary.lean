import Onboarding.Schema
import Onboarding.Bytes
import Onboarding.Text.Utf8
/-!
# Binary records — the bytes of a record, read front to back

Words and lengths take eight bytes and cases four, lowest byte first; an option is
one byte and its value; a text is its length and its bytes; the members of a record
follow each other without names. Reading takes what it needs from the front and
leaves the rest.
-/

namespace Onboarding

/-- Why bytes are not a record. -/
inductive BinaryFault where
  /-- The bytes end inside a number. -/
  | endOfBytes
  /-- The bytes end inside a text. -/
  | shortText
  /-- An option starts with neither zero nor one. -/
  | badOption (tag : Nat)
  /-- A case that is not there, and the number of cases. -/
  | badCase (case cases : Nat)
  /-- A text that is not UTF-8. -/
  | badText (fault : Utf8.Fault)
deriving DecidableEq, Repr

/-- The wording of each fault. -/
def BinaryFault.message : BinaryFault → String
  | .endOfBytes => "io error: unexpected end of file"
  | .shortText => "io error: "
  | .badOption tag => s!"tag for enum is not valid, found {tag}"
  | .badCase case cases =>
    s!"invalid value: integer `{case}`, expected variant index 0 <= i < {cases}"
  | .badText fault => "string is not valid utf8: " ++ fault.message

namespace Schema

/-- A number of `k` bytes at the front. -/
def takeNat (k : Nat) (bs : List UInt8) : Except BinaryFault (Nat × List UInt8) :=
  if bs.length < k then .error .endOfBytes else .ok (leNat (bs.take k), bs.drop k)

/-- A text at the front: its length in bytes, then its bytes. -/
def takeText (bs : List UInt8) : Except BinaryFault (String × List UInt8) :=
  match takeNat 8 bs with
  | .error e => .error e
  | .ok (n, r) =>
    if r.length < n then .error .shortText
    else match Utf8.text (r.take n) with
      | .error f => .error (.badText f)
      | .ok s => .ok (s, r.drop n)

/-- `n` items at the front, each read by `item`. -/
def takeMany {α : Type} (item : List UInt8 → Except BinaryFault (α × List UInt8)) :
    Nat → List UInt8 → Except BinaryFault (List α × List UInt8)
  | 0, bs => .ok ([], bs)
  | n + 1, bs =>
    match item bs with
    | .error e => .error e
    | .ok (a, r) =>
      match takeMany item n r with
      | .error e => .error e
      | .ok (as, r) => .ok (a :: as, r)

end Schema

mutual

/-- The bytes of a value. -/
def Schema.encode : {α : Type} → Schema α → α → List UInt8
  | _, .word, n => leBytes 8 n.toNat
  | _, .count, n => leBytes 8 n
  | _, .text, s => leBytes 8 (byteLength s) ++ Utf8.bytes s
  | _, .choice _, i => leBytes 4 i.val
  | _, .option _, none => [0]
  | _, .option item, some a => 1 :: item.encode a
  | _, .list item, as => leBytes 8 as.length ++ as.flatMap item.encode
  | _, .record fields, a => fields.encode a
  | _, .via base _ get _ _, b => base.encode (get b)

/-- The bytes of the members of a record. -/
def Fields.encode : {α : Type} → Fields α → α → List UInt8
  | _, .done, () => []
  | _, .field _ item _ rest, (a, b) => item.encode a ++ rest.encode b

end

mutual

/-- The value at the front of a byte string, and what follows it. -/
def Schema.decode : {α : Type} → Schema α → List UInt8 → Except BinaryFault (α × List UInt8)
  | _, .word, bs => (Schema.takeNat 8 bs).map fun (n, r) => (UInt64.ofNat n, r)
  | _, .count, bs => Schema.takeNat 8 bs
  | _, .text, bs => Schema.takeText bs
  | _, .choice names, bs =>
    match Schema.takeNat 4 bs with
    | .error e => .error e
    | .ok (n, r) =>
      if h : n < names.length then .ok (⟨n, h⟩, r) else .error (.badCase n names.length)
  | _, .option item, bs =>
    match bs with
    | [] => .error .endOfBytes
    | tag :: r =>
      if tag = 0 then .ok (none, r)
      else if tag = 1 then (item.decode r).map fun (a, r) => (some a, r)
      else .error (.badOption tag.toNat)
  | _, .list item, bs =>
    match Schema.takeNat 8 bs with
    | .error e => .error e
    | .ok (n, r) => Schema.takeMany item.decode n r
  | _, .record fields, bs => fields.decode bs
  | _, .via base make _ _ _, bs => (base.decode bs).map fun (a, r) => (make a, r)

/-- The members of a record at the front of a byte string. -/
def Fields.decode : {α : Type} → Fields α → List UInt8 →
    Except BinaryFault (α × List UInt8)
  | _, .done, bs => .ok ((), bs)
  | _, .field _ item _ rest, bs =>
    match item.decode bs with
    | .error e => .error e
    | .ok (a, r) => (rest.decode r).map fun (b, r) => ((a, b), r)

end

/-- The value that bytes start with, whatever follows it. -/
def Schema.read {α : Type} (s : Schema α) (bs : List UInt8) : Except BinaryFault α :=
  (s.decode bs).map (·.1)

end Onboarding
