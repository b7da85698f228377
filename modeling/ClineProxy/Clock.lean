import Mathlib.Order.Basic

/-!
Durations, monotonic instants and wall-clock times in nanoseconds, with the range of a
clock type that counts seconds in a signed 64-bit word.
-/

namespace Clock

abbrev Duration := Nat

/-- Nanoseconds since the origin of the monotonic clock. -/
abbrev Instant := Nat

/-- Nanoseconds since the Unix epoch, negative before it. -/
abbrev SystemTime := Int

def nanosPerMilli : Nat := 1000000

def nanosPerSec : Nat := 1000000000

def fromSecs (seconds : Nat) : Duration := seconds * nanosPerSec

def fromMillis (milliseconds : Nat) : Duration := milliseconds * nanosPerMilli

def lastRepresentable : Nat := 9223372036854775808 * nanosPerSec - 1

def instantCheckedAdd (instant : Instant) (duration : Duration) : Option Instant :=
  if instant + duration ≤ lastRepresentable then some (instant + duration) else none

def instantCheckedDurationSince (instant earlier : Instant) : Option Duration :=
  if earlier ≤ instant then some (instant - earlier) else none

def systemCheckedAdd (time : SystemTime) (duration : Duration) : Option SystemTime :=
  if time + duration ≤ lastRepresentable then some (time + duration) else none

/-- `none` when `earlier` is in fact later. -/
def systemDurationSince (time earlier : SystemTime) : Option Duration :=
  if earlier ≤ time then some (time - earlier).toNat else none

def unixEpoch : SystemTime := 0

/-- The `Instant` and the `SystemTime` that a process reads at one moment. -/
structure Reading where
  mono : Nat
  wall : Int
  deriving DecidableEq

theorem instantCheckedAdd_eq {instant duration : Nat}
    (fits : instant + duration ≤ lastRepresentable) :
    instantCheckedAdd instant duration = some (instant + duration) := by
  simp [instantCheckedAdd, fits]

theorem instantCheckedAdd_none {instant duration : Nat}
    (past : ¬instant + duration ≤ lastRepresentable) : instantCheckedAdd instant duration = none := by
  simp [instantCheckedAdd, past]

theorem systemCheckedAdd_eq {time : Int} {duration : Nat}
    (fits : time + duration ≤ lastRepresentable) :
    systemCheckedAdd time duration = some (time + duration) := by
  simp [systemCheckedAdd, fits]

end Clock
