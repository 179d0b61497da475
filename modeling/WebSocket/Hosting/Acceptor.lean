import WebSocket.Hosting.Backoff
import WebSocket.Transport.Address
import WebSocket.Transport.Pipe

/-!
# The acceptor

The acceptor asks for one stream after another.  A failure makes it pause, longer after each further
one, and a stream brings the pause back to its first length: after the failure that follows a pause
of length `d` the pause is `Backoff.next? d`.
-/

namespace WebSocket

/-- What waits to be accepted. -/
inductive Arrival where
  /-- A stream from a peer. -/
  | stream (transport : Transport) (peer : SocketAddress)
  /-- A stream that cannot be accepted. -/
  | failure (fault : Fault)
  deriving DecidableEq

inductive AcceptorPhase where
  /-- It is about to ask for a stream. -/
  | asking
  /-- It has asked for a stream. -/
  | waiting
  /-- It pauses until a point in time. -/
  | pausing (deadline : Nat)
  /-- It accepts no more. -/
  | ended
  deriving DecidableEq, Repr

structure Acceptor where
  backoff : Backoff
  /-- The pause after the next failure. -/
  delay : Duration
  phase : AcceptorPhase
  deriving DecidableEq

namespace Acceptor

/-- What a step of the acceptor comes to. -/
inductive Outcome where
  /-- It has asked for a stream. -/
  | asked
  /-- It has taken a stream. -/
  | accepted (transport : Transport) (peer : SocketAddress)
  /-- It has taken a failure, and pauses until a point in time. -/
  | failed (fault : Fault) (deadline : Nat)
  /-- Its pause is over. -/
  | resumed
  /-- Its pause is over, but the next one is out of range. -/
  | gaveUp
  /-- It can do nothing at present. -/
  | idle
  deriving DecidableEq

def new (backoff : Backoff) : Acceptor :=
  ⟨backoff.normalized, backoff.normalized.initial, .asking⟩

/-- One step at a point in time, with the first of what waits to be accepted. -/
def step (a : Acceptor) (now : Nat) (arrival : Option Arrival) : Acceptor × Outcome :=
  match a.phase with
  | .asking => ({ a with phase := .waiting }, .asked)
  | .waiting =>
    match arrival with
    | none => (a, .idle)
    | some (.stream transport peer) =>
      ({ a with delay := a.backoff.initial, phase := .asking }, .accepted transport peer)
    | some (.failure fault) =>
      let deadline := now + a.delay.millisUp
      ({ a with phase := .pausing deadline }, .failed fault deadline)
  | .pausing deadline =>
    if now < deadline then (a, .idle)
    else
      match a.backoff.next? a.delay with
      | none => (a, .gaveUp)
      | some delay => ({ a with delay := delay, phase := .asking }, .resumed)
  | .ended => (a, .idle)

def finish (a : Acceptor) : Acceptor := { a with phase := .ended }

end Acceptor

end WebSocket
