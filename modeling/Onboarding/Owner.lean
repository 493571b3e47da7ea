import Onboarding.Text.Utf8
import Onboarding.Text.Hex
import Onboarding.Text.Split
import Onboarding.Blake2b
/-!
# Owners and wallets — who registers, and where the tokens go

An owner is the hash of what a registration is made for: of an email, or of a
wallet address under the mark `address:`. Owners are compared as texts; a store
accepts any text as an owner, and only `Owner.parse` insists on the form of a hash.
-/

namespace Onboarding

/-- The identifier of a registration: a hash in lowercase hexadecimal. -/
structure Owner where
  text : String
deriving DecidableEq, Repr, Inhabited

/-- A wallet address as its holder wrote it. -/
structure WalletAddress where
  text : String
deriving DecidableEq, Repr, Inhabited

namespace Owner

instance : Ord Owner := ⟨fun a b => compare a.text b.text⟩

instance : Std.TransOrd Owner :=
  inferInstanceAs (Std.TransCmp fun a b : Owner => compareOn Owner.text a b)

instance : Std.LawfulEqOrd Owner where
  eq_of_compare {a b} h := by
    cases a; cases b
    simpa using Std.LawfulEqOrd.eq_of_compare (α := String) h

/-- Characters of an owner that is a hash. -/
def hexLength : Nat := 32

/-- A lowercase hexadecimal digit. -/
def isHexDigit (c : Char) : Bool := ('0' ≤ c && c ≤ '9') || ('a' ≤ c && c ≤ 'f')

/-- An owner as a client writes it: exactly the digits of a hash. -/
def parse (s : String) : Option Owner :=
  if s.toList.length = hexLength ∧ s.toList.all isHexDigit then some ⟨s⟩ else none

/-- The wording for a text that is no owner. -/
def invalidMessage (s : String) : String := "invalid owner: " ++ s

/-- The owner in short, for logs: its first eight bytes. There is no short form
where the eighth byte falls inside a character. -/
def shortForm? (o : Owner) : Option String :=
  let bs := Utf8.bytes o.text
  match Utf8.text (bs.take 8) with
  | .ok s => some ("Owner(" ++ s ++ ")")
  | .error _ => none

/-- The owner of an email, hashed as given. -/
def ofEmail (email : String) : Owner := ⟨Hex.encode (blake2b128 (Utf8.bytes email))⟩

/-- What is hashed for a wallet address: the address in lower case behind a mark. -/
def addressKey (address : String) : String := "address:" ++ asciiLower address

/-- The owner of a registration made for a wallet address alone. -/
def ofAddress (address : String) : Owner :=
  ⟨Hex.encode (blake2b128 (Utf8.bytes (addressKey address)))⟩

end Owner

namespace WalletAddress

/-- The part before the last `1`, unless that is empty. -/
def prefixPart? (a : WalletAddress) : Option String :=
  match splitLast? '1' a.text.toList with
  | some ([], _) => none
  | some (p, _) => some (String.ofList p)
  | none => none

end WalletAddress

end Onboarding
