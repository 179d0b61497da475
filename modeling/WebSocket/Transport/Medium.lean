import WebSocket.Transport.Pipe

/-!
# Media

A medium is what a stream of any kind offers: octets may be read from it and written to it, and what
was written may be pushed on.  Each operation is done, fails, or has to wait.  A link is a medium
(`Link.medium`), seen from the server's end.
-/

namespace WebSocket

/-- What came of an operation. -/
inductive Polled (α : Type) where
  | done (value : α)
  | failed (fault : Fault)
  /-- Nothing for the present. -/
  | pending

/-- The operations on streams of one kind, each with the stream afterwards. -/
structure Medium (σ : Type) where
  /-- Take up to so many octets; none if there will be no more. -/
  read : σ → Nat → σ × Polled Bytes
  /-- Put octets on the stream, and tell how many of them it took. -/
  write : σ → Bytes → σ × Polled Nat
  /-- Push on what was put on the stream. -/
  flush : σ → σ × Polled Unit

/-- A link from the server's end.  What is put into a pipe need not be pushed on. -/
def Link.medium : Medium Link where
  read link most :=
    match link.inbound.read most with
    | (pipe, .octets data) => ({ link with inbound := pipe }, .done data)
    | (_, .ended) => (link, .done [])
    | (_, .nothing) => (link, .pending)
  write link octets :=
    match link.outbound.write octets with
    | (pipe, .accepted n) => ({ link with outbound := pipe }, .done n)
    | (_, .broken) => (link, .failed .brokenPipe)
    | (_, .full) => (link, .pending)
  flush link := (link, .done ())

end WebSocket
