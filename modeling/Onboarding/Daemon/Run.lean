import Onboarding.Daemon.CommandLine
import Onboarding.Daemon.Config
import Onboarding.Daemon.Machine
import Onboarding.Http.Response
import Onboarding.Log.Filter
import Onboarding.Service.Report
/-!
# Running the daemon — what a command prints, logs and leaves behind

A run reads the command line and the configuration, opens the store and does what the
command says. It ends with a status, the lines it printed, the lines it logged, and a
complaint if it failed. What it wrote to the store before it failed stays there.

A server that is not stopped by a signal goes on; its run ends here where it would wait.
-/

namespace Onboarding

/-- What stops a server. -/
inductive Signal where
  | terminate
  | interrupt
deriving DecidableEq, Repr

/-- The name of a signal. -/
def Signal.name : Signal → String
  | terminate => "SIGTERM"
  | interrupt => "SIGINT"

/-- How a run ended. -/
structure Outcome where
  status : Nat
  /-- The lines printed. -/
  lines : List String := []
  /-- The lines logged, in the order of the events. -/
  logs : List LogLine := []
  format : LogFormat := .human
  /-- The first line of the complaint. -/
  complaint : Option String := none
deriving Repr

namespace Daemon

/-- A run on its way: the machine, and what was printed and logged. -/
structure Progress where
  machine : Machine
  lines : List String := []
  logs : List LogLine := []

/-- Why a run does not reach its end. -/
inductive Failure where
  /-- The run fails with a complaint. -/
  | complaint (text : String)
  /-- The program breaks off. -/
  | broken
deriving DecidableEq, Repr

/-- A part of a run. -/
abbrev Task := ExceptT Failure (StateM Progress)

/-- Prints the lines of a text. -/
def print (text : String) : Task Unit :=
  modify fun p => { p with lines := p.lines ++ (splitAll '\n' text.toList).map String.ofList }

/-- Logs an event. -/
def log (l : LogLine) : Task Unit := modify fun p => { p with logs := p.logs ++ [l] }

/-- Fails with a complaint. -/
def complain {α : Type} (text : String) : Task α := throw (.complaint text)

/-! ## The parts of the program that log -/

/-- An event of the daemon itself. -/
def daemonEvent (level : LogLevel) (message : String) (fields : List (String × LogValue) := []) :
    LogLine :=
  ⟨"vulcan_daemon", level, message, fields⟩

/-- An event of the watch for signals. -/
def signalEvent (s : Signal) : LogLine :=
  ⟨"vulcan_daemon::shutdown", .info, "received " ++ s.name ++ ", shutting down", []⟩

/-- An event of the store. -/
def storeEvent (level : LogLevel) (message : String) (fields : List (String × LogValue)) :
    LogLine :=
  ⟨"vulcan_store_lmdb::environment", level, message, fields⟩

/-- An event of the HTTP server. -/
def serverEvent (message : String) (fields : List (String × LogValue) := []) : LogLine :=
  ⟨"vulcan_rpc::server", .info, message, fields⟩

/-- The end of the mail worker. -/
def mailWorkerStopped : LogLine := ⟨"vulcan_mail::dispatcher", .debug, "mail worker stopped", []⟩

/-! ## Configuration -/

/-- The configuration of a file, or the one without a file. -/
def readConfig (m : Machine) : Option String → Except ConfigError Config
  | none => .ok Config.default
  | some path =>
    match m.readFile path with
    | .error reason => .error (.unreadable path reason)
    | .ok bytes => Config.ofFile path bytes

/-- A configuration with what the command line says for every command. -/
def override (l : CommandLine) (c : Config) : Config :=
  { c with
    dataDir := l.dataDir.getD c.dataDir
    logLevel := l.logLevel.getD c.logLevel
    logFormat := l.logFormat.getD c.logFormat }

/-- The configuration that a command is done with. -/
def configure (m : Machine) (l : CommandLine) : Except ConfigError Config :=
  (readConfig m l.config).map (override l)

/-- A configuration with what the command line says for the server. -/
def overrideServer (o : ServeOptions) (c : Config) : Config :=
  { c with
    listen := o.listen.getD c.listen
    blockchain := { c.blockchain with endpoint := o.broadcaster.getD c.blockchain.endpoint }
    mail := { c.mail with
      endpoint := o.mailEndpoint.getD c.mail.endpoint
      apiKey := o.mailKey.getD c.mail.apiKey } }

/-- The variable that sets the filter of the log. -/
def filterVariable : String := "RUST_LOG"

/-- The filter of the log: the variable if it is one, or else the configured level. -/
def filter (env : List (String × String)) (c : Config) : LogFilter :=
  match (env.lookup filterVariable).bind LogFilter.ofText? with
  | some f => f
  | none => LogFilter.ofText c.logLevel

/-! ## The store -/

/-- Opens the store. -/
def openStore (c : Config) : Task IndexedStore := do
  match (← get).machine.openStore c.dataDir c.mapSize with
  | .error _ => complain ("opening store at " ++ c.dataDir)
  | .ok (s, isNew) =>
    if isNew then
      log (storeEvent .debug "initializing schema version"
        [("version", .number IndexedStore.version)])
    log (storeEvent .info "opened LMDB environment" [("path", .text c.dataDir)])
    modify fun p => { p with machine := p.machine.keepStore c.dataDir s }
    return s

/-- Puts a domain on the fraud list, or complains of what it was doing. -/
def putFraudDomain (c : Config) (doing domain : String) (s : IndexedStore) : Task IndexedStore := do
  match Store.alone (Store.putFraudDomain domain) s with
  | (.error _, _) => complain (doing ++ " fraud domain " ++ domain)
  | (.ok _, s) =>
    modify fun p => { p with machine := p.machine.keepStore c.dataDir s }
    return s

/-! ## Commands -/

/-- Puts a domain on the fraud list. -/
def addFraudDomain (c : Config) (domain : String) : Task Unit := do
  let s ← openStore c
  let _ ← putFraudDomain c "adding" domain s
  print ("added fraud domain " ++ asciiLower (trim domain))

/-- The line that lists a stale referral. -/
def staleLine (now : Timestamp) (r : Referral) : String :=
  let installed := r.installedAt.getD r.registeredAt
  r.sender.text ++ " -> " ++ r.receiver.text ++ " installed " ++
    durationText (installed.elapsed now) ++ " ago"

/-- Lists the stale referrals. -/
def listStale (c : Config) (days : Option UInt64) : Task Unit := do
  let s ← openStore c
  let days := days.getD c.staleDays
  let now := (← get).machine.clock
  match Store.installedBefore s (now.minusDays days) with
  | .error e => complain e.message
  | .ok stale =>
    stale.forM fun r => print (staleLine now r)
    print s!"{stale.length} stale referral(s) older than {days.toNat} day(s)"

/-- Puts the configured domains on the fraud list, one after the other. -/
def seed (c : Config) : List String → IndexedStore → Task IndexedStore
  | [], s => pure s
  | d :: rest, s => do seed c rest (← putFraudDomain c "seeding" d s)

/-- The most mails that a queue can have room for. -/
def mostRoom : Nat := 0x1FFFFFFFFFFFFFFF

/-- Reports the stale referrals to the log. -/
def report (c : Config) (s : IndexedStore) : Task Unit := do
  let w : World IndexedStore := { store := s, clock := (← get).machine.clock }
  match (staleReferrals c.staleDays w).1 with
  | .error e =>
    log (daemonEvent .warn "stale referral report failed" [("error", .text e.message)])
  | .ok [] => pure ()
  | .ok stale =>
    log (daemonEvent .warn "stale installed referrals"
      [("count", .number stale.length), ("days", .number c.staleDays.toNat)])

/-- Why a server does not start at a socket. -/
def bindError (a : ListenAddress) (reason : String) : RequestError :=
  .server ("bind " ++ a.text ++ ": " ++ reason)

/-- Listens, and serves until a signal comes. -/
def listen (c : Config) (s : IndexedStore) (signal : Option Signal) : Task Unit := do
  match (← get).machine.listenFault? c.listen with
  | some reason => complain (bindError c.listen reason).message
  | none =>
    log (serverEvent "RPC server listening" [("addr", .text c.listen.text)])
    if c.reportSeconds ≠ 0 then report c s
    match signal with
    | none => pure ()
    | some signal =>
      log (signalEvent signal)
      log (serverEvent "RPC server stopped")
      log (daemonEvent .info "waiting for background referral tasks")
      log mailWorkerStopped
      log (daemonEvent .info "vulcan daemon exited cleanly")

/-- Runs the server. -/
def serve (c : Config) (signal : Option Signal) : Task Unit := do
  let s ← openStore c
  let s ← seed c c.fraudDomains s
  unless c.fraudDomains.isEmpty do
    log (daemonEvent .info "seeded fraud domains" [("count", .number c.fraudDomains.length)])
  if mostRoom < c.mail.queueCapacity then throw .broken
  log (daemonEvent .info "vulcan daemon started"
    [("listen", .text c.listen.text), ("blockchain", .text c.blockchain.endpoint),
      ("startup", .text (durationText 0))])
  listen c s signal

/-- Does what the command says. -/
def execute (l : CommandLine) (c : Config) (signal : Option Signal) : Task Unit := do
  if let some path := l.config then
    log (daemonEvent .info "loaded config" [("path", .text path)])
  match l.command with
  | .serve options => serve (overrideServer options c) signal
  | .addFraudDomain domain => addFraudDomain c domain
  | .staleReferrals days => listStale c days

/-! ## Runs -/

/-- The first line of a text. -/
def firstLine (text : String) : String := String.ofList (text.toList.takeWhile (· ≠ '\n'))

/-- The complaint of a run that fails. -/
def complaintText (text : String) : String := "Error: " ++ firstLine text

/-- The status of a run. -/
def status : Except Failure Unit → Nat
  | .ok () => 0
  | .error (.complaint _) => 1
  | .error .broken => 101

/-- The outcome of a run that ended with a result. -/
def outcome (shown : LogFilter) (format : LogFormat) (r : Except Failure Unit) (p : Progress) :
    Outcome where
  status := status r
  lines := p.lines
  logs := p.logs.filter shown.shows
  format := format
  complaint :=
    match r with
    | .error (.complaint text) => some (complaintText text)
    | _ => none

/-- Runs the daemon with arguments in an environment on a machine. -/
def run (env : List (String × String)) (args : List String) (signal : Option Signal)
    (m : Machine) : Outcome × Machine :=
  match CommandLine.parse env args with
  | .error .misuse => ({ status := 2 }, m)
  | .error .help => ({ status := 0 }, m)
  | .ok l =>
    match configure m l with
    | .error _ =>
      let text := complaintText ("loading config from " ++ l.config.getD "")
      ({ status := 1, complaint := some text }, m)
    | .ok c =>
      match execute l c signal { machine := m } with
      | (r, p) => (outcome (filter env c) c.logFormat r p, p.machine)

end Daemon

end Onboarding
