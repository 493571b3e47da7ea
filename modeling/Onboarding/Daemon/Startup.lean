import Onboarding.Shutdown
/-!
# Starting up — how the server comes to hear the signal that stops it

Two tasks run while the daemon starts. The main task starts the watch for signals, lets
the reporter listen, lets the server listen, and serves; when the server returns it sends
the signal itself, for the reporter. The watch makes ready and, when it catches a signal,
sends it to whoever listens at that moment. A `Startup` is how far both have come, an
`Act` is one step of either, and a run is a list of acts in any order in which each can
happen.
-/

namespace Onboarding

/-- How far the main task has come. -/
inductive Startup.Stage where
  /-- The store is open. -/
  | opened
  /-- The watch was started. -/
  | watched
  /-- The reporter listens. -/
  | reporting
  /-- The server listens for the signal. -/
  | prepared
  | serving
  /-- The server has returned. -/
  | stopped
  /-- The reporter was told to end. -/
  | closing
deriving DecidableEq, Repr

/-- How far the watch for signals has come. -/
inductive Startup.Watch where
  | absent
  | started
  /-- Signals are caught from now on. -/
  | ready
  /-- A signal was caught and sent on. -/
  | done
  /-- Signals cannot be caught. -/
  | failed
deriving DecidableEq, Repr

/-- Both tasks on their way. -/
structure Startup where
  stage : Startup.Stage := .opened
  watch : Startup.Watch := .absent
  beacon : Beacon := { }
  /-- The reporter, as long as it runs. -/
  reporter : Option Listener := none
  /-- The server, as long as it waits for the signal. -/
  server : Option Listener := none
  /-- The server heard the signal. -/
  resolved : Bool := false
deriving DecidableEq, Repr

namespace Startup

/-- One step of a task. -/
inductive Act where
  | startWatch
  | reporterListens
  | serverListens
  | serve
  /-- The server, which has heard the signal, has answered everyone. -/
  | serverReturns
  /-- The signal is sent once more, by the main task. -/
  | dismiss
  | watchReady
  | watchFails
  /-- A signal is caught and sent to those who listen. -/
  | signal
  /-- The reporter hears the signal and ends. -/
  | reporterHears
  /-- The reporter ends by itself. -/
  | reporterEnds
  /-- The server hears the signal and stops. -/
  | serverHears
deriving DecidableEq, Repr

/-- How many steps the main task has taken. -/
def Stage.rank : Stage → Nat
  | .opened => 0
  | .watched => 1
  | .reporting => 2
  | .prepared => 3
  | .serving => 4
  | .stopped => 5
  | .closing => 6

/-- Those who listen. -/
def listeners (s : Startup) : Nat := s.reporter.toList.length + s.server.toList.length

/-- Whether someone who listens would be woken. -/
def wakes (s : Startup) (l : Option Listener) : Bool := l.any s.beacon.wakes

/-- What an act makes of both tasks, if it can happen. -/
def act (s : Startup) : Act → Option Startup
  | .startWatch =>
    if s.stage = .opened then some { s with stage := .watched, watch := .started } else none
  | .reporterListens =>
    if s.stage = .watched then
      some { s with stage := .reporting, reporter := some s.beacon.listen }
    else none
  | .serverListens =>
    if s.stage = .reporting then
      some { s with stage := .prepared, server := some s.beacon.listen }
    else none
  | .serve => if s.stage = .prepared then some { s with stage := .serving } else none
  | .serverReturns =>
    if s.stage = .serving && s.resolved then some { s with stage := .stopped } else none
  | .dismiss =>
    if s.stage = .stopped then
      some { s with stage := .closing, beacon := s.beacon.signal s.listeners }
    else none
  | .watchReady => if s.watch = .started then some { s with watch := .ready } else none
  | .watchFails =>
    if s.watch = .started || s.watch = .ready then some { s with watch := .failed } else none
  | .signal =>
    if s.watch = .ready then
      some { s with watch := .done, beacon := s.beacon.signal s.listeners }
    else none
  | .reporterHears => if s.wakes s.reporter then some { s with reporter := none } else none
  | .reporterEnds => some { s with reporter := none }
  | .serverHears =>
    if s.stage = .serving && s.wakes s.server then
      some { s with server := none, resolved := true }
    else none

/-- Where a list of acts leads, if each can happen in its turn. -/
def run (acts : List Act) : Option Startup := acts.foldlM act { }

/-- Whether the server has heard the signal or is about to. -/
def stops (s : Startup) : Bool := s.resolved || s.wakes s.server

/-- Whether the main task has come as far as serving. -/
def serves (s : Startup) : Bool := Stage.rank .serving ≤ s.stage.rank

end Startup

end Onboarding
