/-!
# Shutdown — one signal for everyone who listens

A `Beacon` sends signals to those who listen when it is sent; it remembers only the
last one. A listener that misses signals is told how many before it gets the last. A
`Watch` is a listener that only waits for something to happen.
-/

namespace Onboarding

/-- The sender of signals. -/
structure Beacon where
  /-- Signals sent while somebody listened. -/
  sent : Nat := 0
  /-- The sender is gone. -/
  closed : Bool := false
deriving DecidableEq, Repr, Inhabited

/-- Someone who listens, and the number of signals they have received or missed. -/
structure Listener where
  seen : Nat
deriving DecidableEq, Repr, Inhabited

/-- What a listener hears. -/
inductive Heard where
  | signal
  | nothing
  /-- Nothing will come any more. -/
  | closed
  /-- Signals were missed. -/
  | lagged (missed : Nat)
deriving DecidableEq, Repr

namespace Beacon

/-- Signals that are remembered. -/
def memory : Nat := 1

/-- A listener from now on. -/
def listen (b : Beacon) : Listener := ⟨b.sent⟩

/-- Sends a signal to `listeners` listeners; nothing is remembered where there are
none. -/
def signal (b : Beacon) (listeners : Nat) : Beacon :=
  if b.closed || listeners = 0 then b else { b with sent := b.sent + 1 }

/-- The sender goes away. -/
def close (b : Beacon) : Beacon := { b with closed := true }

/-- What a listener hears next. -/
def hear (b : Beacon) (l : Listener) : Heard × Listener :=
  if l.seen = b.sent then (if b.closed then .closed else .nothing, l)
  else if b.sent - l.seen ≤ memory then (.signal, ⟨l.seen + 1⟩)
  else (.lagged (b.sent - memory - l.seen), ⟨b.sent - memory⟩)

/-- Whether someone who waits for a signal goes on: hearing anything is enough. -/
def wakes (b : Beacon) (l : Listener) : Bool := (b.hear l).1 != .nothing

end Beacon

/-- A beacon with listeners and waiting tasks, by name. -/
structure ShutdownControl where
  beacon : Beacon := { }
  listeners : List (String × Listener) := []
  /-- Tasks that wait for the signal. -/
  waiting : List (String × Listener) := []
deriving DecidableEq, Repr, Inhabited

namespace ShutdownControl

/-- Something under a name, in place of what was there. -/
def put {α : Type} (name : String) (a : α) (xs : List (String × α)) : List (String × α) :=
  (name, a) :: xs.filter (·.1 ≠ name)

/-- A new listener; there is none to be had once the sender is gone. -/
def subscribe (name : String) (c : ShutdownControl) : ShutdownControl :=
  if c.beacon.closed then c else { c with listeners := put name c.beacon.listen c.listeners }

/-- A new task that waits for the signal. -/
def await (name : String) (c : ShutdownControl) : ShutdownControl :=
  if c.beacon.closed then c else { c with waiting := put name c.beacon.listen c.waiting }

/-- Sends the signal. -/
def shutdown (c : ShutdownControl) : ShutdownControl :=
  { c with beacon := c.beacon.signal (c.listeners.length + c.waiting.length) }

/-- The sender goes away. -/
def drop (c : ShutdownControl) : ShutdownControl := { c with beacon := c.beacon.close }

/-- Whether a waiting task goes on, which is then forgotten. -/
def poll (name : String) (c : ShutdownControl) : Option Bool × ShutdownControl :=
  match c.waiting.lookup name with
  | none => (none, c)
  | some l =>
    if c.beacon.wakes l then
      (some true, { c with waiting := c.waiting.filter (·.1 ≠ name) })
    else (some false, c)

/-- What a listener hears. -/
def receive (name : String) (c : ShutdownControl) : Option Heard × ShutdownControl :=
  match c.listeners.lookup name with
  | none => (none, c)
  | some l =>
    match c.beacon.hear l with
    | (h, l') => (some h, { c with listeners := put name l' c.listeners })

end ShutdownControl

/-- How a background task ended. -/
inductive TaskEnd where
  | finished
  | failed
  | aborted
deriving DecidableEq, Repr

/-- Whether a task that was waited for ended as it should. -/
def TaskEnd.isNormal (e : TaskEnd) : Bool := e == .finished

end Onboarding
