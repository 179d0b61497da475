import WebSocket.Opening.OpeningError
import WebSocket.Session.Event
import WebSocket.Transport.Address
import WebSocket.Wire.FrameError

/-!
# Notices

What the server reports in its log, each with the lines that report it.
-/

namespace WebSocket

/-- What a panicking callback leaves behind.  A value of another type is let go once the panic is
reported; it is taken not to panic in turn. -/
inductive PanicPayload where
  /-- A text. -/
  | text (s : String)
  /-- A value of another type. -/
  | other
  deriving DecidableEq, Repr

def PanicPayload.message : PanicPayload → String
  | text s => s
  | other => "Any \x7b .. \x7d"

def peerText (peer : Option SocketAddress) : String :=
  match peer with
  | none => "None"
  | some address => "Some(" ++ address.toText ++ ")"

inductive Notice where
  /-- The server listens at its address. -/
  | listening (address : String)
  /-- The server begins to stop. -/
  | stopping (address : String)
  /-- The server has stopped. -/
  | stopped (address : String)
  /-- A session has opened. -/
  | opened (id : ConnectionId) (peer : Option SocketAddress)
  /-- A connection closes. -/
  | closed (id : ConnectionId)
  /-- All connections are going to be closed. -/
  | closingAll (count : Nat)
  /-- A client broke a rule. -/
  | violation (id : ConnectionId) (error : FrameError)
  /-- A read failed. -/
  | readFailed (id : ConnectionId) (fault : Fault)
  /-- A write failed. -/
  | writeFailed (id : ConnectionId) (fault : Fault)
  /-- A read ended for a connection that is not in the table. -/
  | strayRead (id : ConnectionId)
  /-- A write ended for a connection that is not in the table. -/
  | strayWrite (id : ConnectionId)
  /-- A client was not let in. -/
  | openingFailed (error : OpeningError) (peer : Option SocketAddress)
  /-- A stream could not be accepted. -/
  | acceptFailed (fault : Fault) (address : String)
  /-- A callback of the application panicked while it handled an event. -/
  | panicked (id : ConnectionId) (event : Event) (payload : PanicPayload)
  deriving DecidableEq

namespace Notice

/-- The lines of the log, each with its level in front. -/
def lines : Notice → List String
  | listening address => ["INFO server listening: local_addr=" ++ address]
  | stopping address => ["INFO stopping server: local_addr=" ++ address]
  | stopped address => ["INFO server stopped: local_addr=" ++ address]
  | opened id peer =>
    ["INFO connection opened: id=" ++ id.text ++ ", peer_addr=" ++ peerText peer]
  | closed id => ["INFO connection closed: id=" ++ id.text]
  | closingAll count => ["INFO closing all connections: count=" ++ toString count]
  | violation id error =>
    ["WARN protocol violation: id=" ++ id.text ++ ", error=" ++ error.message
      ++ ", error_type=" ++ error.category]
  | readFailed id fault => ["WARN read failed: id=" ++ id.text ++ ", error=" ++ fault.message]
  | writeFailed id fault => ["WARN write failed: id=" ++ id.text ++ ", error=" ++ fault.message]
  | strayRead id => ["WARN read completion for unknown connection: id=" ++ id.text]
  | strayWrite id => ["WARN write completion for unknown connection: id=" ++ id.text]
  | openingFailed error peer =>
    ["WARN handshake failed: error=" ++ error.message ++ ", peer_addr=" ++ peerText peer]
  | acceptFailed fault address =>
    ["WARN accept error: error=" ++ fault.diagnosis ++ ", local_addr=Some(" ++ address ++ ")"]
  | panicked id event payload =>
    let detail := Text.quote ("id=" ++ id.text ++ ", event=" ++ event.kind)
    let message := payload.message
    ["ERROR event handler panicked: panic=" ++ message ++ ", detail=" ++ detail,
      "ERROR event handler panicked panic=" ++ message ++ " detail=" ++ detail]

end Notice

end WebSocket
