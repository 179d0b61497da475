/-!
# Durations

A span of time in whole nanoseconds.  The seconds of a duration are a number of 64 bits, so doubling
one may leave the range (`Duration.double?`).
-/

namespace WebSocket

def nanosPerSecond : Nat := 1000000000

def nanosPerMilli : Nat := 1000000

def maxSeconds : Nat := 0xFFFFFFFFFFFFFFFF

def maxNanos : Nat := maxSeconds * nanosPerSecond + (nanosPerSecond - 1)

structure Duration where
  nanos : Nat
  inRange : nanos ≤ maxNanos
  deriving DecidableEq

namespace Duration

/-- The duration of so many nanoseconds, if it is in range. -/
def ofNanos? (n : Nat) : Option Duration := if h : n ≤ maxNanos then some ⟨n, h⟩ else none

/-- The duration of so many milliseconds; the longest one if that is out of range. -/
def ofMillis (n : Nat) : Duration := ⟨min (n * nanosPerMilli) maxNanos, Nat.min_le_right _ _⟩

def seconds (d : Duration) : Nat := d.nanos / nanosPerSecond

/-- The nanoseconds beside the whole seconds. -/
def fraction (d : Duration) : Nat := d.nanos % nanosPerSecond

/-- The least number of milliseconds that is no shorter. -/
def millisUp (d : Duration) : Nat := (d.nanos + (nanosPerMilli - 1)) / nanosPerMilli

def longer (a b : Duration) : Duration := if a.nanos ≤ b.nanos then b else a

def shorter (a b : Duration) : Duration := if a.nanos ≤ b.nanos then a else b

def double? (d : Duration) : Option Duration := ofNanos? (2 * d.nanos)

/-! ## Lemmas -/

theorem nanos_longer (a b : Duration) : (longer a b).nanos = max a.nanos b.nanos := by
  unfold longer
  split <;> omega

theorem nanos_shorter (a b : Duration) : (shorter a b).nanos = min a.nanos b.nanos := by
  unfold shorter
  split <;> omega

theorem double?_eq_none_iff (d : Duration) : d.double? = none ↔ maxNanos < 2 * d.nanos := by
  unfold double? ofNanos?
  split <;> simp <;> omega

end Duration

end WebSocket
