import Onboarding.Daemon.Run
import Onboarding.Store.Image
import Std.Time.DateTime.Timestamp
/-!
# The daemon as a program

Finds out what the machine is like, runs the daemon on it, and keeps what the run left
in the directory of its store.
-/

namespace Onboarding.Program

/-- The name of the file that keeps a store in its directory. -/
def imageName : String := "store.txt"

/-- The variables that the daemon looks at. -/
def environment : IO (List (String × String)) := do
  let names := Daemon.filterVariable :: CommandLine.Flag.all.filterMap (·.fromEnvironment)
  names.filterMapM fun name => do
    return (← IO.getEnv name).map fun value => (name, value)

/-- The machine before any file of it is looked at. -/
def bareMachine : IO Machine := do
  let dir := (← IO.currentDir).toString
  let now ← Std.Time.Timestamp.now
  let clock := ⟨now.toSecondsSinceUnixEpoch.val.toNat.toUInt64⟩
  return { workingDir := Path.ofText [] dir, clock }

/-- The machine with a file of the disk, if the disk has it. -/
def withFile (m : Machine) (path : String) : IO Machine := do
  try
    let bytes ← IO.FS.readBinFile path
    return { m with files := (Path.ofText m.workingDir path, bytes.toList) :: m.files }
  catch _ => return m

/-- The machine with the store of a directory, if the directory keeps one. -/
def withStore (m : Machine) (dir : String) : IO Machine := do
  try
    let lines ← IO.FS.lines (dir ++ "/" ++ imageName)
    match IndexedStore.ofLines? lines.toList with
    | some s => return m.keepStore dir s
    | none => return m
  catch _ => return m

/-- The machine with everything on the disk that a command looks at. -/
def foundMachine (env : List (String × String)) (args : List String) : IO Machine := do
  let m ← bareMachine
  match CommandLine.parse env args with
  | .error _ => return m
  | .ok l =>
    let m ← match l.config with
      | some path => withFile m path
      | none => pure m
    match Daemon.configure m l with
    | .error _ => return m
    | .ok c =>
      withStore m c.dataDir

/-- Keeps the stores of a machine on the disk. -/
def keepStores (m : Machine) : IO Unit := do
  for (path, s) in m.stores do
    let dir := "/" ++ "/".intercalate path
    IO.FS.createDirAll dir
    IO.FS.writeFile (dir ++ "/" ++ imageName) (String.join (s.toLines.map (· ++ "\n")))

end Onboarding.Program

open Onboarding Onboarding.Program in
/-- Runs the daemon with the arguments of the program. -/
def main (args : List String) : IO UInt32 := do
  let env ← environment
  let m ← foundMachine env args
  let (o, m) := Daemon.run env args none m
  for l in o.logs do IO.println (l.render o.format)
  for line in o.lines do IO.println line
  if let some complaint := o.complaint then IO.eprintln complaint
  keepStores m
  return o.status.toUInt32
