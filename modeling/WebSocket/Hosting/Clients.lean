import WebSocket.Hosting.Turn

/-!
# The clients of a host

What the clients at the other ends of a host's streams do: they come, write, read and hang up.  Each
operation lets the tasks go on that wait for it; the host runs when it is settled.
-/

namespace WebSocket.Host

def readersOf (host : Host) (client : Transport) : List Task :=
  ((host.jobs.filter fun job => job.isRead && job.transport = client).map Job.task)
    ++ (host.attempts.filter fun a => a.phase.isReading && a.transport = client).map
      (.opening ·.transport)

def writersOf (host : Host) (client : Transport) : List Task :=
  ((host.jobs.filter fun job => ! job.isRead && job.transport = client).map Job.task)
    ++ (host.attempts.filter fun a => ! a.phase.isReading && a.transport = client).map
      (.opening ·.transport)

/-- Whether a client is there: it has come and has not hung up. -/
def attends (host : Host) (client : Transport) : Bool :=
  (host.links[client]?).any (·.attended)

/-! ## Coming -/

/-- A client connects; the result is its number, or nothing if the acceptor has ended. -/
def arrive (host : Host) (capacity : Nat) (peer : SocketAddress) : Host × Option Transport :=
  if host.acceptor.phase = .ended then (host, none)
  else
    let (host, transport) := host.addLink (.new capacity)
    let arrivals := host.arrivals ++ [.stream transport peer]
    ({ host with arrivals := arrivals }.wake .acceptor, some transport)

/-- A client fails to connect in a way that the host notices, unless the acceptor has ended; the
result tells. -/
def arriveBroken (host : Host) (fault : Fault) : Host × Bool :=
  if host.acceptor.phase = .ended then (host, false)
  else
    let arrivals := host.arrivals ++ [.failure fault]
    ({ host with arrivals := arrivals }.wake .acceptor, true)

/-! ## Writing -/

/-- A client writes once, as much as fits.  What reads from the client goes on if octets came. -/
def clientWrite (host : Host) (client : Transport) (data : Bytes) : Host × Pipe.Written :=
  match host.links[client]? with
  | none => (host, .broken)
  | some link =>
    let (pipe, written) := link.inbound.write data
    match written with
    | .accepted 0 => (host, .accepted 0)
    | .accepted n =>
      let host := host.changeLink client fun link => { link with inbound := pipe }
      (host.wakeAll (host.readersOf client), .accepted n)
    | refused => (host, refused)

/-- What became of a client's octets. -/
structure Sent where
  /-- How many went out. -/
  written : Nat
  /-- Whether the stream was found broken. -/
  broken : Bool
  deriving DecidableEq, Repr

/-- A client writes at most so many times, and lets the host settle each time. -/
def clientWriteWithin (host : Host) (client : Transport) (data : Bytes) (written : Nat) :
    Nat → Host × Sent
  | 0 => (host, ⟨written, false⟩)
  | tries + 1 =>
    if data.isEmpty then (host, ⟨written, false⟩)
    else
      match host.clientWrite client data with
      | (host, .accepted n) =>
        host.settle.clientWriteWithin client (data.drop n) (written + n) tries
      | (host, .full) => (host, ⟨written, false⟩)
      | (host, .broken) => (host, ⟨written, true⟩)

/-- A client writes until all its octets are out or no more fit; every write that fits takes at
least one octet. -/
def clientWriteAll (host : Host) (client : Transport) (data : Bytes) : Host × Sent :=
  host.clientWriteWithin client data 0 data.length

/-! ## Reading -/

/-- A client reads once, all there is or `most` octets of it, and what writes to the client goes on;
the result tells whether the stream has ended. -/
def clientRead? (host : Host) (client : Transport) (most : Option Nat) :
    Option (Host × Bytes × Bool) :=
  host.links[client]?.map fun link =>
    let (pipe, data, ended) := link.outbound.readAvailable most
    let host := host.changeLink client fun link => { link with outbound := pipe }
    (host.wakeAll (host.writersOf client), data, ended)

/-- A client reads at most so many times, and lets the host settle each time. -/
def clientReadWithin (host : Host) (client : Transport) (most : Option Nat) :
    Nat → Host × Bytes × Bool
  | 0 => (host, [], false)
  | tries + 1 =>
    match host.clientRead? client most with
    | none => (host, [], false)
    | some (host, data, ended) =>
      let host := host.settle
      if ended || data.isEmpty then (host, data, ended)
      else
        let (host, more, ended) :=
          host.clientReadWithin client (most.map (· - data.length)) tries
        (host, data ++ more, ended)

/-- A client reads until nothing more comes, the stream ends or it has `most` octets; the result
tells whether the stream ended. -/
def clientReadAll (host : Host) (client : Transport) (most : Option Nat) : Host × Bytes × Bool :=
  host.clientReadWithin client most stepLimit

/-! ## Leaving -/

/-- A client says that it will send no more. -/
def clientShutDown (host : Host) (client : Transport) : Host :=
  (host.changeLink client Link.shutDown).wakeAll (host.readersOf client)

/-- A client hangs up.  What reads from it goes on before what writes to it. -/
def clientHangUp (host : Host) (client : Transport) : Host :=
  (host.changeLink client Link.hangUp).wakeAll (host.readersOf client ++ host.writersOf client)

end WebSocket.Host
