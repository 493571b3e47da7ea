import Onboarding.IpAddress
import Onboarding.Store.Indexed
import Onboarding.Timestamp
/-!
# Machines — the files, stores and addresses that a daemon finds

A machine has a directory to work in, files, stores in directories of their own, a clock
and addresses that are taken. Paths are lists of names; a directory is there if it is the
working directory or above anything that is there.
-/

namespace Onboarding

/-- A path from the root on. -/
abbrev Path : Type := List String

/-- A path without its last name. -/
def Path.up (p : Path) : Path := p.dropLast

/-- A path with one more name of a text; `.` and an empty name stay where they are. -/
def Path.step (p : Path) (name : List Char) : Path :=
  match name with
  | [] => p
  | ['.'] => p
  | ['.', '.'] => p.up
  | name => p ++ [String.ofList name]

/-- The path that a text names, seen from a directory. -/
def Path.ofText (dir : Path) (text : String) : Path :=
  let cs := text.toList
  (splitAll '/' cs).foldl Path.step (if cs.head? == some '/' then [] else dir)

/-- What a daemon finds. -/
structure Machine where
  workingDir : Path
  files : List (Path × List UInt8) := []
  stores : List (Path × IndexedStore) := []
  clock : Timestamp
  /-- Sockets that others listen at. -/
  taken : List SocketAddress := []

namespace Machine

/-- Whether a directory is there. -/
def isDirectory (m : Machine) (p : Path) : Bool :=
  p.isPrefixOf m.workingDir || m.stores.any (fun s => p.isPrefixOf s.1) ||
    m.files.any (fun f => p.isPrefixOf f.1 && p ≠ f.1)

/-- Whether a path goes through a file. -/
def isBehindFile (m : Machine) (p : Path) : Bool := m.files.any fun f => f.1.isPrefixOf p

/-- The bytes of a file, or why it has none. -/
def readFile (m : Machine) (text : String) : Except String (List UInt8) :=
  let p := Path.ofText m.workingDir text
  if text.isEmpty then .error "No such file or directory (os error 2)"
  else match m.files.lookup p with
    | some bytes =>
      if text.toList.getLast? == some '/' then .error "Not a directory (os error 20)"
      else .ok bytes
    | none =>
      if m.isBehindFile p then .error "Not a directory (os error 20)"
      else if m.isDirectory p then .error "Is a directory (os error 21)"
      else .error "No such file or directory (os error 2)"

/-! ## Stores -/

/-- The bytes of a page of a store. -/
def pageSize : Nat := 4096

/-- The pages that a new store needs. -/
def newStorePages : Nat := 5

/-- What a store of a size that is not said may grow to, in bytes. -/
def unsaidSize : Nat := 0x100000

/-- The bytes that no store may grow to. -/
def addressSpace : Nat := 0x800000000000

/-- Why a store cannot be opened with a size, if it cannot. -/
def sizeFault? (size : Nat) (isNew : Bool) : Option OpenError :=
  let size := if size = 0 then unsaidSize else size
  if size % pageSize ≠ 0 then some (.file "the size is no multiple of a page")
  else if addressSpace ≤ size then some (.backend "Cannot allocate memory (os error 12)")
  else if isNew && size < newStorePages * pageSize then
    some (.backend "MDB_MAP_FULL: Environment mapsize limit reached")
  else none

/-- The store in a directory, made if the directory has none. The flag says whether it
was made. -/
def openStore (m : Machine) (dir : String) (size : Nat) : Except OpenError (IndexedStore × Bool) :=
  let p := Path.ofText m.workingDir dir
  if dir.isEmpty then .error (.file "No such file or directory (os error 2)")
  else if m.isBehindFile p then .error .blocked
  else
    let found := m.stores.lookup p
    match sizeFault? size found.isNone with
    | some e => .error e
    | none =>
      match found with
      | none => .ok (.empty, true)
      | some s => s.reopen.map fun s => (s, false)

/-- The machine with a store in a directory. -/
def keepStore (m : Machine) (dir : String) (s : IndexedStore) : Machine :=
  let p := Path.ofText m.workingDir dir
  { m with stores := (p, s) :: m.stores.filter (·.1 ≠ p) }

/-! ## Sockets -/

/-- Whether an address is the machine's own. -/
def isOwn : IpAddress → Bool
  | .v4 a b c d => a = 127 || (a, b, c, d) = (0, 0, 0, 0)
  | .v6 pieces => pieces = [0, 0, 0, 0, 0, 0, 0, 1] || pieces = List.replicate 8 0

/-- Why nothing can listen at a socket, if nothing can. -/
def listenFault? (m : Machine) (a : ListenAddress) : Option String :=
  match SocketAddress.parse? a.text with
  | none => none
  | some s =>
    if m.taken.contains s then some "Address already in use (os error 98)"
    else if isOwn s.host then none
    else some "Cannot assign requested address (os error 99)"

end Machine

end Onboarding
