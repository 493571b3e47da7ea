import Onboarding.Bytes
/-!
# Blake2b — the keyless hash of a byte string

The hash of RFC 7693: the message is cut into blocks of 128 bytes, the last one
filled with zeros, and each is mixed into eight words of state in twelve rounds.
A digest of `n` bytes is the first `n` bytes of the state, and `n` is also part of
the initial state, so shorter digests are not cut-off longer ones.
-/

namespace Onboarding

namespace Blake2b

/-- The initial state before the digest length is mixed in. -/
def initial : Vector UInt64 8 :=
  #v[0x6a09e667f3bcc908, 0xbb67ae8584caa73b, 0x3c6ef372fe94f82b, 0xa54ff53a5f1d36f1,
    0x510e527fade682d1, 0x9b05688c2b3e6c1f, 0x1f83d9abfb41bd6b, 0x5be0cd19137e2179]

/-- The order in which a round reads the sixteen message words; round ten starts
again with the first row. -/
def schedule : Vector (Vector (Fin 16) 16) 10 :=
  #v[#v[0, 1, 2, 3, 4, 5, 6, 7, 8, 9, 10, 11, 12, 13, 14, 15],
    #v[14, 10, 4, 8, 9, 15, 13, 6, 1, 12, 0, 2, 11, 7, 5, 3],
    #v[11, 8, 12, 0, 5, 2, 15, 13, 10, 14, 3, 6, 7, 1, 9, 4],
    #v[7, 9, 3, 1, 13, 12, 11, 14, 2, 6, 5, 10, 4, 0, 15, 8],
    #v[9, 0, 5, 7, 2, 4, 10, 15, 14, 1, 11, 12, 6, 8, 3, 13],
    #v[2, 12, 6, 10, 0, 11, 8, 3, 4, 13, 7, 5, 15, 14, 1, 9],
    #v[12, 5, 1, 15, 14, 13, 4, 10, 0, 7, 6, 3, 9, 2, 8, 11],
    #v[13, 11, 7, 14, 12, 1, 3, 9, 5, 0, 15, 4, 8, 6, 2, 10],
    #v[6, 15, 14, 9, 11, 3, 0, 8, 12, 2, 13, 7, 1, 4, 10, 5],
    #v[10, 2, 8, 4, 7, 6, 1, 5, 15, 11, 9, 14, 3, 12, 13, 0]]

/-- A word turned right by `n` bits. -/
def rotateRight (w : UInt64) (n : UInt64) : UInt64 := (w >>> n) ||| (w <<< (64 - n))

/-- Two message words mixed into four words of the state. -/
def mix (v : Vector UInt64 16) (a b c d : Fin 16) (x y : UInt64) : Vector UInt64 16 :=
  let v := v.set a (v[a] + v[b] + x)
  let v := v.set d (rotateRight (v[d] ^^^ v[a]) 32)
  let v := v.set c (v[c] + v[d])
  let v := v.set b (rotateRight (v[b] ^^^ v[c]) 24)
  let v := v.set a (v[a] + v[b] + y)
  let v := v.set d (rotateRight (v[d] ^^^ v[a]) 16)
  let v := v.set c (v[c] + v[d])
  v.set b (rotateRight (v[b] ^^^ v[c]) 63)

/-- One round: the four columns of the state, then its four diagonals. -/
def round (m : Vector UInt64 16) (v : Vector UInt64 16) (s : Vector (Fin 16) 16) :
    Vector UInt64 16 :=
  let v := mix v 0 4 8 12 m[s[0]] m[s[1]]
  let v := mix v 1 5 9 13 m[s[2]] m[s[3]]
  let v := mix v 2 6 10 14 m[s[4]] m[s[5]]
  let v := mix v 3 7 11 15 m[s[6]] m[s[7]]
  let v := mix v 0 5 10 15 m[s[8]] m[s[9]]
  let v := mix v 1 6 11 12 m[s[10]] m[s[11]]
  let v := mix v 2 7 8 13 m[s[12]] m[s[13]]
  mix v 3 4 9 14 m[s[14]] m[s[15]]

/-- The sixteen little-endian words of a block. -/
def words (block : List UInt8) : Vector UInt64 16 :=
  Vector.ofFn fun i : Fin 16 => UInt64.ofNat (leNat ((block.drop (8 * i.val)).take 8))

/-- The sixteen working words of a block: the state, and the initial state with
the number of message bytes so far and, in the message's last block, a mark. -/
def working (h : Vector UInt64 8) (count : Nat) (last : Bool) : Vector UInt64 16 :=
  #v[h[0], h[1], h[2], h[3], h[4], h[5], h[6], h[7],
    initial[0], initial[1], initial[2], initial[3],
    initial[4] ^^^ UInt64.ofNat count, initial[5] ^^^ UInt64.ofNat (count / UInt64.size),
    if last then ~~~initial[6] else initial[6], initial[7]]

/-- Twelve rounds over a block. -/
def rounds (m v : Vector UInt64 16) : Vector UInt64 16 :=
  (schedule.toList ++ [schedule[0], schedule[1]]).foldl (round m) v

/-- One block mixed into the state. `count` is the number of message bytes up to
the end of the block, and `last` marks the block that ends the message. -/
def compress (h : Vector UInt64 8) (block : List UInt8) (count : Nat) (last : Bool) :
    Vector UInt64 8 :=
  let v := rounds (words block) (working h count last)
  Vector.ofFn fun i : Fin 8 => h[i] ^^^ v[i.castLE (by decide : 8 ≤ 16)] ^^^ v[i.natAdd 8]

/-- Bytes of a block. -/
def blockLength : Nat := 128

/-- The state after the whole message. `count` bytes were read before; a block is
the last one if nothing follows it, so a message that fills its blocks exactly ends
with a full block, and only the empty message with an empty one. -/
def absorb (h : Vector UInt64 8) (count : Nat) (message : List UInt8) : Vector UInt64 8 :=
  if blockLength < message.length then
    absorb (compress h (message.take blockLength) (count + blockLength) false)
      (count + blockLength) (message.drop blockLength)
  else compress h message (count + message.length) true
termination_by message.length
decreasing_by
  simp only [List.length_drop, blockLength] at *
  omega

/-- The digest of `size` bytes of a message. -/
def digest (size : Nat) (message : List UInt8) : List UInt8 :=
  let start := initial.set 0 (initial[0] ^^^ 0x01010000 ^^^ UInt64.ofNat size)
  ((absorb start 0 message).toList.flatMap fun w => leBytes 8 w.toNat).take size

end Blake2b

/-- The hash of 128 bits of a byte string. -/
def blake2b128 (message : List UInt8) : List UInt8 := Blake2b.digest 16 message

end Onboarding
