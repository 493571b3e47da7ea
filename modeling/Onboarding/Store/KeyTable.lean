import Onboarding.Store.Error
import Std.Data.ExtTreeMap
/-!
# Key tables — ordered maps from byte strings to byte strings

A key has 1 to 511 bytes. Writing under any other key fails; reading under an empty
key fails too, and under a longer one finds nothing, since nothing can be there.
Entries are listed in the order of their keys, byte by byte.
-/

namespace Onboarding

/-- A key of a table. -/
abbrev Key := List UInt8

/-- Entries by key, in the order of keys. -/
abbrev KeyTable := Std.ExtTreeMap Key (List UInt8)

namespace KeyTable

/-- The longest key. -/
def maxKeyLength : Nat := 511

/-- What a key of a wrong length is answered with. -/
def badKey : StoreError :=
  .backend ("LMDB error: MDB_BAD_VALSIZE: "
    ++ "Unsupported size of key/DB name/data, or wrong DUPFIXED size")

/-- The value under a key. -/
def get (t : KeyTable) (k : Key) : Except StoreError (Option (List UInt8)) :=
  if k = [] then .error badKey else .ok t[k]?

/-- The table with a value under a key. -/
def put (t : KeyTable) (k : Key) (v : List UInt8) : Except StoreError KeyTable :=
  if k = [] ∨ maxKeyLength < k.length then .error badKey else .ok (t.insert k v)

/-- The table without a key. -/
def delete (t : KeyTable) (k : Key) : Except StoreError KeyTable :=
  if k = [] then .error badKey else .ok (t.erase k)

/-- The entries whose keys start with a key, in order. -/
def withPrefix (t : KeyTable) (k : Key) : Except StoreError (List (Key × List UInt8)) :=
  if k = [] then .error badKey else .ok (t.toList.filter fun e => k.isPrefixOf e.1)

end KeyTable

end Onboarding
