/-!
# Timestamps — seconds since the epoch, and the days they fall into

Timestamps are 64-bit words. Differences and shifts stop at the ends of the range
instead of wrapping round, so a clock that was set back reads as no time elapsed.
-/

namespace Onboarding

/-- Seconds of a day. -/
def secondsPerDay : Nat := 86400

/-- A point in time, in seconds since the epoch. -/
structure Timestamp where
  seconds : UInt64
deriving DecidableEq, Repr, Inhabited

namespace Timestamp

/-- Earlier than. -/
def before (a b : Timestamp) : Bool := a.seconds < b.seconds

instance : Ord Timestamp := ⟨fun a b => compare a.seconds b.seconds⟩

instance : Std.TransOrd Timestamp :=
  inferInstanceAs (Std.TransCmp fun a b : Timestamp => compareOn Timestamp.seconds a b)

instance : Std.LawfulEqOrd Timestamp where
  eq_of_compare {a b} h := by
    cases a; cases b
    simpa using Std.LawfulEqOrd.eq_of_compare (α := UInt64) h

/-- Seconds that passed from `t` to `now`; none if `now` is earlier. -/
def elapsed (t now : Timestamp) : Nat := now.seconds.toNat - t.seconds.toNat

/-- Whether `duration` seconds have passed since `t`. A moment beyond the last
timestamp counts as the last one. -/
def hasExpired (t : Timestamp) (duration : UInt64) (now : Timestamp) : Bool :=
  min (t.seconds.toNat + duration.toNat) (UInt64.size - 1) ≤ now.seconds.toNat

/-- The same time of day `days` days earlier, or the epoch. A number of seconds
beyond a word counts as the largest word. -/
def minusDays (t : Timestamp) (days : UInt64) : Timestamp :=
  ⟨UInt64.ofNat (t.seconds.toNat - min (days.toNat * secondsPerDay) (UInt64.size - 1))⟩

/-- The first second of the day that holds `t`. -/
def startOfDay (t : Timestamp) : Timestamp :=
  ⟨UInt64.ofNat (t.seconds.toNat / secondsPerDay * secondsPerDay)⟩

/-- The seconds and their unit. -/
def text (t : Timestamp) : String := s!"{t.seconds.toNat}s"

@[simp] theorem toNat_startOfDay (t : Timestamp) :
    t.startOfDay.seconds.toNat = t.seconds.toNat / secondsPerDay * secondsPerDay := by
  have h := t.seconds.toNat_lt
  have : t.seconds.toNat / secondsPerDay * secondsPerDay < 2 ^ 64 := by
    have := Nat.div_mul_le_self t.seconds.toNat secondsPerDay
    omega
  simp only [startOfDay, UInt64.toNat_ofNat']
  omega

end Timestamp

/-- Where a clock that is set by hand starts. -/
def ManualClock.start : Timestamp := ⟨1700000000⟩

/-- The first second of the year 2020. -/
def year2020 : Timestamp := ⟨1577836800⟩

/-- A duration in its two largest units: seconds, minutes and seconds, hours and
minutes, or days and hours. -/
def durationText (seconds : Nat) : String :=
  if seconds < 60 then s!"{seconds}s"
  else if seconds < 3600 then s!"{seconds / 60}m {seconds % 60}s"
  else if seconds < secondsPerDay then s!"{seconds / 3600}h {seconds % 3600 / 60}m"
  else s!"{seconds / secondsPerDay}d {seconds % secondsPerDay / 3600}h"

end Onboarding
