import WebSocket.Hosting.Duration

/-!
# Back-off

How long a server waits before it tries again to accept a stream: `initial` after the first failure
and twice as long after each further one, up to `ceiling`.  Both are at least a millisecond and
`initial` is the shorter (`normalized`).
-/

namespace WebSocket

/-- The waits between failed attempts to accept a stream. -/
structure Backoff where
  initial : Duration
  ceiling : Duration
  deriving DecidableEq

namespace Backoff

def floor : Duration := .ofMillis 1

/-- Ten milliseconds at first and one second at most. -/
def standard : Backoff := ⟨.ofMillis 10, .ofMillis 1000⟩

/-- Both waits raised to the least one, and in order. -/
def normalized (b : Backoff) : Backoff :=
  let initial := b.initial.longer floor
  let ceiling := b.ceiling.longer floor
  if ceiling.nanos < initial.nanos then ⟨ceiling, initial⟩ else ⟨initial, ceiling⟩

/-- The wait after one of length `d`; nothing if twice `d` is out of range. -/
def next? (b : Backoff) (d : Duration) : Option Duration :=
  d.double?.map fun twice => twice.shorter b.ceiling

end Backoff

end WebSocket
