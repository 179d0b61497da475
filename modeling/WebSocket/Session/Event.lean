import WebSocket.Wire.ServerFrame

/-!
# Messages and events

What an application learns of its connections.  For every connection it is told of the opening,
then of any number of messages, and then of the end.
-/

namespace WebSocket

/-- The number of a connection.  Numbers start at one and are never used again. -/
structure ConnectionId where
  value : Nat
  deriving DecidableEq, Repr

def ConnectionId.text (id : ConnectionId) : String := toString id.value

/-- The order in which connections opened. -/
def ConnectionId.compare (a b : ConnectionId) : Ordering := Ord.compare a.value b.value

inductive Message where
  | text (s : String)
  | binary (octets : Bytes)
  deriving DecidableEq

namespace Message

def octets : Message → Bytes
  | text s => Bytes.ofString s
  | binary octets => octets

/-- Whether the message goes into a binary frame. -/
def isBinary : Message → Bool
  | text _ => false
  | binary _ => true

def frame : Message → ServerFrame
  | text s => .text s
  | binary octets => .binary octets

end Message

/-- What an application is told about a connection. -/
inductive Event where
  /-- The session has opened. -/
  | newConnection
  /-- A message has come. -/
  | message (message : Message)
  /-- The connection closes; nothing more is told of it. -/
  | disconnect
  deriving DecidableEq

def Event.kind : Event → String
  | newConnection => "new_connection"
  | message _ => "message"
  | disconnect => "disconnect"

end WebSocket
