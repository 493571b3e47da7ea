/-!
# UTF-8 — the bytes of a text, and where a byte string stops being one

`bytes` lists the bytes a text is stored as. `text?` reads them back and, where
they hold no text, says how far they do: `Fault.start` is the number of bytes
before the first character that cannot be read, and `Fault.width` the number of
bytes that character spoils, or nothing where the bytes end inside it.
-/

namespace Onboarding

namespace Utf8

/-- The bytes of a character. -/
def encodeChar (c : Char) : List UInt8 := String.utf8EncodeChar c

/-- The bytes of a text, character by character. -/
def bytes (s : String) : List UInt8 := s.toList.flatMap encodeChar

/-- Where a byte string stops being UTF-8. -/
structure Fault where
  /-- Bytes before the first character that cannot be read. -/
  start : Nat
  /-- Bytes the unreadable character spoils; `none` where more bytes could
  still have completed it. -/
  width : Option Nat
deriving DecidableEq, Repr

/-- The wording of a fault. -/
def Fault.message (f : Fault) : String :=
  match f.width with
  | some w => s!"invalid utf-8 sequence of {w} bytes from index {f.start}"
  | none => s!"incomplete utf-8 byte sequence from index {f.start}"

/-- A continuation byte carries six bits under the mark `10`. -/
def isTail (b : UInt8) : Bool := 0x80 ≤ b && b ≤ 0xBF

/-- Six bits of a continuation byte below those read so far. -/
def push (high : Nat) (b : UInt8) : Nat := high * 64 + (b.toNat - 0x80)

/-- Second bytes that the first byte of a three-byte character admits: no
overlong forms and no surrogates. -/
def second3 (a b : UInt8) : Bool :=
  (a == 0xE0 && 0xA0 ≤ b && b ≤ 0xBF) || (0xE1 ≤ a && a ≤ 0xEC && isTail b) ||
    (a == 0xED && 0x80 ≤ b && b ≤ 0x9F) || (0xEE ≤ a && a ≤ 0xEF && isTail b)

/-- Second bytes that the first byte of a four-byte character admits: no
overlong forms and nothing above the last code point. -/
def second4 (a b : UInt8) : Bool :=
  (a == 0xF0 && 0x90 ≤ b && b ≤ 0xBF) || (0xF1 ≤ a && a ≤ 0xF3 && isTail b) ||
    (a == 0xF4 && 0x80 ≤ b && b ≤ 0x8F)

/-- The characters of a byte string whose first byte stands at index `at`. -/
def charsFrom (start : Nat) : List UInt8 → Except Fault (List Char)
  | [] => .ok []
  | a :: r1 =>
    if a < 0x80 then
      (charsFrom (start + 1) r1).map (Char.ofNat a.toNat :: ·)
    else if 0xC2 ≤ a && a ≤ 0xDF then
      match r1 with
      | [] => .error ⟨start, none⟩
      | b :: r2 =>
        if isTail b then
          (charsFrom (start + 2) r2).map (Char.ofNat (push (a.toNat - 0xC0) b) :: ·)
        else .error ⟨start, some 1⟩
    else if 0xE0 ≤ a && a ≤ 0xEF then
      match r1 with
      | [] => .error ⟨start, none⟩
      | b :: r2 =>
        if !second3 a b then .error ⟨start, some 1⟩ else
        match r2 with
        | [] => .error ⟨start, none⟩
        | c :: r3 =>
          if isTail c then
            (charsFrom (start + 3) r3).map
              (Char.ofNat (push (push (a.toNat - 0xE0) b) c) :: ·)
          else .error ⟨start, some 2⟩
    else if 0xF0 ≤ a && a ≤ 0xF4 then
      match r1 with
      | [] => .error ⟨start, none⟩
      | b :: r2 =>
        if !second4 a b then .error ⟨start, some 1⟩ else
        match r2 with
        | [] => .error ⟨start, none⟩
        | c :: r3 =>
          if !isTail c then .error ⟨start, some 2⟩ else
          match r3 with
          | [] => .error ⟨start, none⟩
          | d :: r4 =>
            if isTail d then
              (charsFrom (start + 4) r4).map
                (Char.ofNat (push (push (push (a.toNat - 0xF0) b) c) d) :: ·)
            else .error ⟨start, some 3⟩
    else .error ⟨start, some 1⟩

/-- The text that a byte string holds. -/
def text (bs : List UInt8) : Except Fault String :=
  (charsFrom 0 bs).map String.ofList

end Utf8

/-- The number of bytes that a text is stored in. -/
def byteLength (s : String) : Nat := (Utf8.bytes s).length

end Onboarding
