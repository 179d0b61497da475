import WebSocket.CommandLine
import WebSocket.Hosting.Clients

/-!
# A service for one client

An echo server whose one client is there from the start: octets come from it and go back to it as
time passes.
-/

namespace WebSocket

def CommandLine.settings (c : CommandLine) : Settings :=
  (Settings.standard.withPayloadLimit c.payloadLimit).withOpeningLimit
    (c.openingTimeout.map fun seconds => .ofMillis (1000 * seconds))

/-- A running server with its one client. -/
structure Service where
  host : Host
  client : Transport

namespace Service

/-- The address from which the client is taken to come. -/
def peer : SocketAddress := ⟨.v4 127 0 0 1, 0, 0⟩

/-- A server to which the client has connected. -/
def start (c : CommandLine) : Service :=
  let host := Host.serve c.settings (Rule.application Rule.echo) c.bind.toText
  let (host, _) := host.arrive Link.defaultCapacity peer
  ⟨host.settle, 0⟩

/-- Let time pass and octets come; the result is what goes back to the client, and whether the
server has let go of it. -/
def exchange (s : Service) (milliseconds : Nat) (octets : Bytes) : Service × Bytes × Bool :=
  let host := s.host.advance milliseconds
  let (host, _) := host.clientWriteAll s.client octets
  let (host, data, ended) := host.settle.clientReadAll s.client none
  ({ s with host := host }, data, ended)

/-- The client says no more, and the server stops. -/
def finish (s : Service) : Service × Bytes :=
  let host := (s.host.clientShutDown s.client).settle.stop
  let (host, data, _) := host.clientReadAll s.client none
  ({ s with host := host }, data)

end Service

end WebSocket
