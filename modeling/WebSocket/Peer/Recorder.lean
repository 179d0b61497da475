import WebSocket.Session.Event
import WebSocket.Text.Quoted

/-!
# Recorders

A recorder is an application that notes what it is told, and sends messages back if it is to echo
them.  Whoever watches takes the events from it in order, and learns when no more can come.
-/

namespace WebSocket

/-- The event with the connection it concerns, as a diagnosis shows it. -/
def Event.diagnosis (event : Event) (id : ConnectionId) : String :=
  let shown :=
    match event with
    | .newConnection => "NewConnection"
    | .message (.text s) => "Message(Text(" ++ Text.quote s ++ "))"
    | .message (.binary octets) => "Message(Binary(" ++ Text.quoteOctets octets ++ "))"
    | .disconnect => "Disconnect"
  "(ConnectionId(" ++ id.text ++ "), " ++ shown ++ ")"

namespace Peer

/-- Why there is no event to take. -/
inductive WatchError where
  /-- None came in time. -/
  | timedOut
  /-- The application is gone. -/
  | stopped
  /-- Another event came than the opening of a session. -/
  | unexpected (id : ConnectionId) (event : Event)
  deriving DecidableEq

def WatchError.message : WatchError → String
  | timedOut => "timed out waiting for an event"
  | stopped => "server stopped"
  | unexpected id event => "expected NewConnection, got " ++ event.diagnosis id

/-- An application that notes events. -/
structure Recorder where
  /-- Whether messages are sent back. -/
  echo : Bool
  /-- Events noted and not taken yet, the oldest first. -/
  noted : List (ConnectionId × Event)
  /-- Whether the application is still there. -/
  attached : Bool
  deriving DecidableEq

namespace Recorder

def new (echo : Bool) : Recorder := ⟨echo, [], true⟩

/-- Note an event; the result is what is sent. -/
def emit (r : Recorder) (id : ConnectionId) (event : Event) :
    Recorder × List (ConnectionId × Message) :=
  if ! r.attached then (r, [])
  else
    let sent :=
      match event with
      | .message message => if r.echo then [(id, message)] else []
      | _ => []
    ({ r with noted := r.noted ++ [(id, event)] }, sent)

def next (r : Recorder) : Recorder × Except WatchError (ConnectionId × Event) :=
  match r.noted with
  | [] => (r, .error (if r.attached then .timedOut else .stopped))
  | first :: later => ({ r with noted := later }, .ok first)

/-- Take the oldest event, which has to be the opening of a session. -/
def connected (r : Recorder) : Recorder × Except WatchError ConnectionId :=
  let (r, taken) := r.next
  (r, taken.bind fun
    | (id, .newConnection) => .ok id
    | (id, event) => .error (.unexpected id event))

def drain (r : Recorder) : Recorder × List (ConnectionId × Event) :=
  ({ r with noted := [] }, r.noted)

/-- The application goes; the result tells whether it was there. -/
def finish (r : Recorder) : Recorder × Bool := ({ r with attached := false }, r.attached)

end Recorder

end Peer

end WebSocket
