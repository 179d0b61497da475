import WebSocket.Hosting.Backoff
import WebSocket.Opening.RequestReader
import WebSocket.Wire.Decoder

/-!
# Settings of a server

The limits under which a server works.  Each setter brings its value into the range that the server
needs.
-/

namespace WebSocket

structure Settings where
  /-- The longest payload that is accepted. -/
  payloadLimit : Nat
  /-- The longest request that is accepted. -/
  requestLimit : Nat
  /-- How long a client may take to open a session, if there is a limit. -/
  openingLimit : Option Duration
  /-- The waits after failures to accept a stream. -/
  backoff : Backoff
  deriving DecidableEq

namespace Settings

def standard : Settings := ⟨maxPayload, Opening.maxRequest, none, .standard⟩

/-- Set the longest payload; room for control frames stays. -/
def withPayloadLimit (s : Settings) (n : Nat) : Settings :=
  { s with payloadLimit := clampPayloadLimit n }

def withRequestLimit (s : Settings) (n : Nat) : Settings := { s with requestLimit := max n 1 }

def withOpeningLimit (s : Settings) (d : Option Duration) : Settings := { s with openingLimit := d }

def withBackoff (s : Settings) (b : Backoff) : Settings := { s with backoff := b.normalized }

end Settings

/-- Why a server did not start or does not take a request. -/
inductive ServerError where
  /-- The address could not be bound. -/
  | bind (fault : Fault)
  /-- The server's thread could not be started. -/
  | runtime (fault : Fault)
  /-- The server has stopped. -/
  | stopped
  deriving DecidableEq, Repr

namespace ServerError

def message : ServerError → String
  | bind fault => "bind error: " ++ fault.message
  | runtime fault => "runtime error: " ++ fault.message
  | stopped => "server stopped"

def cause? : ServerError → Option Fault
  | bind fault => some fault
  | runtime fault => some fault
  | stopped => none

end ServerError

end WebSocket
