import WebSocket.Session.Engine

/-!
# Applications

An application is told of events one by one and reacts to each: it posts requests and may then
panic.  What it does may depend on all it was told before.  `Rule.application` is an application
that follows a list of rules.
-/

namespace WebSocket

inductive Post where
  /-- A request to the engine. -/
  | request (request : Request)
  /-- Send the message of the event to a connection. -/
  | forward (target : ConnectionId)
  /-- A stream of the application's own, with octets that are read already. -/
  | connect (leftover : Bytes)
  deriving DecidableEq

/-- What an application does about an event: what it posts, in order, and the panic that ends the
callback if there is one. -/
structure Reaction where
  posts : List Post
  panic : Option PanicPayload
  deriving DecidableEq

/-- An application: its reaction to an event, given what it was told before, the latest first. -/
abbrev Application := List (ConnectionId × Event) → ConnectionId → Event → Reaction

/-! ## Rules -/

/-- An action of a rule.  `target` is the connection it concerns, that of the event if none is
given. -/
inductive Action where
  /-- Send the message of the event back. -/
  | echo (target : Option ConnectionId)
  /-- Send a message. -/
  | send (message : Message) (target : Option ConnectionId)
  /-- Close a connection. -/
  | drop (target : Option ConnectionId)
  /-- Bring in a stream. -/
  | connect (leftover : Bytes)
  /-- Panic. -/
  | panic (payload : PanicPayload)
  deriving DecidableEq

/-- Actions for the events of one kind.  `payload` restricts them to messages with these octets; it
does not matter for other events. -/
structure Rule where
  kind : String
  payload : Option Bytes
  actions : List Action
  deriving DecidableEq

namespace Rule

def applies (rule : Rule) (event : Event) : Bool :=
  rule.kind == event.kind &&
    match rule.payload, event with
    | some octets, .message message => message.octets == octets
    | _, _ => true

/-- Take actions until one panics. -/
def react (id : ConnectionId) (event : Event) : List Action → Reaction
  | [] => ⟨[], none⟩
  | .panic payload :: _ => ⟨[], some payload⟩
  | action :: later =>
    let rest := react id event later
    let post : List Post :=
      match action, event with
      | .echo target, .message _ => [.forward (target.getD id)]
      | .send message target, _ => [.request (.send (target.getD id) message none)]
      | .drop target, _ => [.request (.drop (target.getD id))]
      | .connect leftover, _ => [.connect leftover]
      | _, _ => []
    { rest with posts := post ++ rest.posts }

def application (rules : List Rule) : Application := fun _ id event =>
  react id event ((rules.filter (·.applies event)).flatMap (·.actions))

/-- The rules of an echo server: every message goes back to its sender. -/
def echo : List Rule := [⟨"message", none, [.echo none]⟩]

end Rule

end WebSocket
