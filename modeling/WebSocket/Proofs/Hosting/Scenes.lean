import WebSocket.Hosting.Clients
import WebSocket.Proofs.Hosting.Core
import WebSocket.Proofs.Session.Posting

/-!
# Scenes

A scene is a host with what has gone through it: the mail its engine has handled, the requests that
were posted, and the octets that clients have taken from their streams.  What was ever put on a
stream is what was taken from it and what it still holds (`Scene.sent`).

A move is a step of one task, or something that happens from outside.  Moves may come in any order,
whatever the order of turns, the clock or the acceptor make of it: they are as free as they can be
(`Scene.move`), so that what is proved of all sequences of moves is true of every way in which tasks
may take turns.
-/

namespace WebSocket

/-- A host with what has gone through it. -/
structure Scene where
  host : Host
  /-- The mail that the engine has handled. -/
  handled : List Mail
  /-- What was asked of the engine. -/
  posted : List Request
  /-- What the client of a stream has taken. -/
  taken : Transport → Bytes
  /-- What had been put on a stream when it was let in. -/
  before : Transport → Bytes

/-- A step of a task, or something from outside. -/
inductive Move where
  /-- The engine handles a piece of mail, or ends. -/
  | engine
  /-- A read or a write goes on. -/
  | job (task : Task)
  /-- A client is being let in. -/
  | opening (transport : Transport)
  | acceptor
  /-- Something is asked of the engine. -/
  | request (request : Request)
  /-- A stream without an opening handshake is brought in. -/
  | connect (capacity : Nat) (leftover : Bytes)
  /-- No more clients are let in. -/
  | refuse
  | arrive (capacity : Nat) (peer : SocketAddress)
  | arriveBroken (fault : Fault)
  /-- A client writes once. -/
  | write (client : Transport) (data : Bytes)
  /-- A client reads once. -/
  | read (client : Transport) (most : Option Nat)
  | shutDown (client : Transport)
  | hangUp (client : Transport)
  /-- Whatever else there is of a host becomes that of another one: the clock, the order of turns,
  the acceptor, the application and the records. -/
  | other (host : Host)

namespace Host

/-- The host with everything but its core as in another host. -/
def dressed (host other : Host) : Host :=
  { other with
    engine := host.engine
    running := host.running
    completions := host.completions
    requests := host.requests
    links := host.links
    jobs := host.jobs
    attempts := host.attempts
    arrivals := host.arrivals }

end Host

namespace Scene

def start (settings : Settings) (application : Application) (address : String) : Scene :=
  ⟨.new settings application address, [], [], fun _ => [], fun _ => []⟩

/-- What was ever put on a stream. -/
def sent (σ : Scene) (transport : Transport) : Bytes :=
  σ.taken transport ++ σ.host.outbound transport

/-- The scene when the host has become another one, which may have been asked something more. -/
def become (σ : Scene) (host : Host) : Scene :=
  { σ with
    host := host
    posted := σ.posted ++ host.requests.toList.drop σ.host.requests.toList.length }

/-- The engine takes a piece of mail from the rest of its host. -/
def take (σ : Scene) (mail : Mail) (rest : Host) : Scene :=
  { σ with
    host := rest
    handled := σ.handled ++ [mail]
    before := fun transport =>
      if mail.stream? = some transport then σ.sent transport else σ.before transport }

def engineStep (σ : Scene) : Scene :=
  if ! σ.host.running then σ
  else if σ.host.engine.isDone then { σ with host := σ.host.retire }
  else
    match σ.host.takeMail? with
    | none => σ
    | some (mail, rest) => (σ.take mail rest).become (rest.handle mail)

def clientRead (σ : Scene) (client : Transport) (most : Option Nat) : Scene :=
  match σ.host.clientRead? client most with
  | none => σ
  | some (host, data, _) =>
    { σ with
      host := host
      taken := fun transport =>
        if client = transport then σ.taken transport ++ data else σ.taken transport }

def move (σ : Scene) : Move → Scene
  | .engine => σ.engineStep
  | .job task => σ.become (σ.host.jobTurn task)
  | .opening transport => σ.become (σ.host.openingTurn transport).1
  | .acceptor => σ.become σ.host.acceptorTurn.1
  | .request request => σ.become (σ.host.request request).1
  | .connect capacity leftover => σ.become (σ.host.connect capacity leftover).1
  | .refuse => σ.become σ.host.refuse
  | .arrive capacity peer => σ.become (σ.host.arrive capacity peer).1
  | .arriveBroken fault => σ.become (σ.host.arriveBroken fault).1
  | .write client data => σ.become (σ.host.clientWrite client data).1
  | .read client most => σ.clientRead client most
  | .shutDown client => σ.become (σ.host.clientShutDown client)
  | .hangUp client => σ.become (σ.host.clientHangUp client)
  | .other host => σ.become (σ.host.dressed host)

def run (σ : Scene) (moves : List Move) : Scene := moves.foldl move σ

end Scene

end WebSocket
