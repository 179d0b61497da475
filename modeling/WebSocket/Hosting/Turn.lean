import WebSocket.Hosting.Host

/-!
# Turns

A task whose turn it is goes on until it can do nothing more; what it wakes meanwhile waits.  Only
the engine stops short of that: it leaves mail for its next turn when it has handled
`Host.mailPerTurn` pieces.  `Host.settle` gives out turns until no task is ready, and `Host.advance`
moves the clock from one timer to the next.

The tasks that let clients in look whether they may: an attempt when its turn begins, the acceptor
also before it asks for a stream and before it pauses.  What they find counts until they look again
or their turn ends (`Host.cleared`), even if `Host.refuse` comes in between.  Then they have another
turn, in which they look.
-/

namespace WebSocket.Host

/-! ## The engine -/

def handle (host : Host) (mail : Mail) : Host :=
  let (engine, effects) := host.engine.dispatch mail
  effects.foldl perform { host with engine := engine }

/-- No more clients are to be let in, and the tasks that let them in are to look. -/
def refuse (host : Host) : Host :=
  if host.shutdown then host
  else
    let openings := host.attempts.map fun attempt => Task.opening attempt.transport
    { host with shutdown := true }.wakeAll (.acceptor :: openings)

/-- The stream that a completion brings, if it is a client that was to be let in. -/
def broughtStream : Completion → Option Transport
  | .registered transport _ _ => some transport
  | _ => none

/-- The engine has nothing left to do and takes no more mail. -/
def retire (host : Host) : Host :=
  let brought := host.completions.filterMap broughtStream
  let host := { host with running := false, completions := [], requests := .empty }
  (brought.foldl release host).refuse

inductive TurnEnd where
  /-- The turn goes on. -/
  | continued
  /-- The task waits until something lets it go on. -/
  | waiting
  /-- The task can go on, but other tasks come first. -/
  | deferred
  deriving DecidableEq, Repr

/-- The piece of mail that comes next, and the host without it.  Completions come before
requests. -/
def takeMail? (host : Host) : Option (Mail × Host) :=
  match host.completions with
  | completion :: later => some (.completion completion, { host with completions := later })
  | [] =>
    host.requests.pop?.map fun (request, later) =>
      (.request request, { host with requests := later })

/-- How many pieces of mail the engine handles in a turn at most. -/
def mailPerTurn : Nat := 128

/-- The turn of the engine, in which it may still handle so many pieces of mail. -/
def engineTurn (host : Host) (allowance : Nat) : Host × TurnEnd :=
  if ! host.running then (host, .waiting)
  else if host.engine.isDone then (host.retire, .waiting)
  else
    match allowance with
    | 0 => (host, .deferred)
    | allowance + 1 =>
      match host.takeMail? with
      | none => (host, .waiting)
      | some (mail, host) => (host.handle mail).engineTurn allowance

/-! ## Reads and writes -/

def jobTurn (host : Host) (task : Task) : Host :=
  match host.jobs.find? (·.task = task) with
  | none => host
  | some job =>
    match host.links[job.transport]? with
    | none => host
    | some link =>
      let (link, outcome) := job.step link
      let host := host.changeLink job.transport fun _ => link
      match outcome with
      | .inl waiting =>
        { host with jobs := host.jobs.map fun job => if job.task = task then waiting else job }
      | .inr completion =>
        { host with jobs := host.jobs.filter (·.task ≠ task) }.complete completion

/-! ## Clients that are being let in -/

/-- Put an attempt in the place of the one on its stream. -/
def putAttempt (host : Host) (attempt : Attempt) : Host :=
  { host with
    attempts := host.attempts.map fun a =>
      if a.transport = attempt.transport then attempt else a }

def removeAttempt (host : Host) (transport : Transport) : Host :=
  { host with attempts := host.attempts.filter (·.transport ≠ transport) }

/-- An attempt is over: the session opens, or the stream is let go. -/
def finishAttempt (host : Host) (attempt : Attempt) (outcome : Except OpeningError ReceiveBuffer) :
    Host :=
  let host := host.removeAttempt attempt.transport
  match outcome with
  | .ok leftover => host.complete (.registered attempt.transport attempt.peer leftover)
  | .error error =>
    ((host.count (.error .handshake)).report (.openingFailed error attempt.peer)).release
      attempt.transport

/-- How the turn of a task ends that lets clients in and can do nothing more: it looks again if
clients are to be kept out by now. -/
def pause (host : Host) : TurnEnd := if host.shutdown then .deferred else .waiting

/-- An attempt waits.  The clock for it runs from the first wait on; when the client's time is over,
so is the attempt. -/
def awaitAttempt (host : Host) (attempt : Attempt) : Host × TurnEnd :=
  match attempt.deadline, host.settings.openingLimit with
  | none, none => (host, host.pause)
  | none, some limit =>
    let deadline := host.now + limit.millisUp
    if deadline ≤ host.now then (host.finishAttempt attempt (.error .timedOut), .waiting)
    else
      ((host.setTimer ⟨deadline, .opening attempt.transport⟩).putAttempt
        { attempt with deadline := some deadline }, host.pause)
  | some deadline, _ =>
    if deadline ≤ host.now then (host.finishAttempt attempt (.error .timedOut), .waiting)
    else (host, host.pause)

/-- An attempt goes on, waits or is over, as its stream would have it. -/
def proceed (host : Host) (attempt : Attempt) : Opening.Progress → Host × TurnEnd
  | .moved phase => (host.putAttempt { attempt with phase := phase }, .continued)
  | .waiting => host.awaitAttempt attempt
  | .ended outcome => (host.finishAttempt attempt outcome, .waiting)

/-- The stream of an attempt is let go. -/
def abandon (host : Host) (transport : Transport) : Host :=
  (host.removeAttempt transport).release transport

def openingTurn (host : Host) (transport : Transport) : Host × TurnEnd :=
  match host.attempts.find? (·.transport = transport), host.links[transport]? with
  | some attempt, some link =>
    if host.cleared then
      let (link, progress) := attempt.phase.step Link.medium host.settings.requestLimit link
      (host.changeLink transport fun _ => link).proceed attempt progress
    else if host.shutdown then (host.abandon transport, .waiting)
    else ({ host with cleared := true }, .continued)
  | _, _ => (host, .waiting)

/-! ## The acceptor -/

/-- Let go of a stream that waits to be accepted. -/
def dismiss (host : Host) : Arrival → Host
  | .stream transport _ => host.release transport
  | .failure _ => host

/-- The acceptor ends, and what waits to be accepted is let go. -/
def endAccepting (host : Host) : Host :=
  host.arrivals.foldl dismiss { host with acceptor := host.acceptor.finish, arrivals := [] }

def beginAttempt (host : Host) (transport : Transport) (peer : SocketAddress) : Host :=
  let attempt : Attempt := ⟨transport, some peer, none, .start⟩
  { host with attempts := host.attempts ++ [attempt] }.wake (.opening transport)

def acceptorTurn (host : Host) : Host × TurnEnd :=
  if host.cleared then
    let (acceptor, outcome) := host.acceptor.step host.now host.arrivals.head?
    match outcome with
    | .asked =>
      let records := { host.records with asked := host.now :: host.records.asked }
      ({ host with acceptor := acceptor, records := records }, .continued)
    | .accepted transport peer =>
      let arrivals := host.arrivals.tail
      let host := { host with acceptor := acceptor, arrivals := arrivals, cleared := false }
      (host.beginAttempt transport peer, .continued)
    | .failed fault deadline =>
      let arrivals := host.arrivals.tail
      let host := { host with acceptor := acceptor, arrivals := arrivals, cleared := false }
      let host := (host.count (.error .accept)).report (.acceptFailed fault host.address)
      (host.setTimer ⟨deadline, .acceptor⟩, .continued)
    | .resumed => ({ host with acceptor := acceptor, cleared := false }, .continued)
    | .gaveUp => (host.endAccepting, .waiting)
    | .idle => (host, host.pause)
  else if host.shutdown then (host.endAccepting, .waiting)
  else ({ host with cleared := true }, .continued)

/-! ## Giving out turns -/

def turn (host : Host) : Task → Host × TurnEnd
  | .engine => host.engineTurn mailPerTurn
  | .clients => (host, .waiting)
  | .acceptor => host.acceptorTurn
  | .reader id => (host.jobTurn (.reader id), .waiting)
  | .writer id => (host.jobTurn (.writer id), .waiting)
  | .opening transport => host.openingTurn transport

/-- How many turns a round has, that of the engine apart. -/
def turnsPerRound : Nat := 61

/-- It is a task's turn. -/
def give (host : Host) (task : Task) : Host :=
  { host with current := some task, ready := host.ready.erase task }

def endTurn (host : Host) : Host := { host with current := none, cleared := false }

def beginRound (host : Host) : Host :=
  let host := { host with pacing := .rounds turnsPerRound }.wake .clients
  if .engine ∈ host.ready then host.give .engine else host

def giveNext (host : Host) : Host :=
  match host.pacing with
  | .even =>
    match host.ready.head? with
    | none => host
    | some task => host.give task
  | .rounds left =>
    match left, host.ready.find? (· ≠ .engine) with
    | left + 1, some task => { host with pacing := .rounds left }.give task
    | _, _ => host.beginRound

/-- The task whose turn it is takes part of it; if there is none, the next task gets its turn. -/
def step (host : Host) : Host :=
  match host.current with
  | none => host.giveNext
  | some task =>
    match host.turn task with
    | (host, .continued) => host
    | (host, .waiting) => host.endTurn
    | (host, .deferred) => host.endTurn.wake task

/-- Whether no task of the host can go on. -/
def isIdle (host : Host) : Bool := host.current.isNone && host.ready.all (· = .clients)

/-- The host when the clients have just had a turn: one in which nothing else happened, at the
beginning of a round. -/
def afterClients (host : Host) : Host :=
  match host.pacing with
  | .even => host
  | .rounds _ =>
    { host with
      pacing := .rounds (turnsPerRound - 1)
      ready := host.ready.filter (· ≠ .clients) }

/-- Take steps until no task can go on, at most so many. -/
def settleWithin (host : Host) : Nat → Host
  | 0 => host
  | n + 1 => if host.isIdle then host else host.step.settleWithin n

/-- How many steps are taken at most.  An application that brings in a stream for every new
connection never comes to rest. -/
def stepLimit : Nat := 1000000000000000000

/-- After a turn of the clients, take steps until no task can go on. -/
def settle (host : Host) : Host := host.afterClients.settleWithin stepLimit

/-! ## The clock -/

def earliest? (timers : List Timer) : Option Nat := (timers.map (·.deadline)).min?

/-- Move the clock to a deadline, and let the tasks go on whose timers are due. -/
def fire (host : Host) (deadline : Nat) : Host :=
  let (due, later) := host.timers.partition fun timer => timer.deadline ≤ deadline
  { host with now := deadline, timers := later }.wakeAll (due.map Timer.task)

/-- Move the clock to `finish`, past at most so many deadlines. -/
def advanceTo (finish : Nat) (host : Host) : Nat → Host
  | 0 => { host with now := finish }
  | n + 1 =>
    match earliest? host.timers with
    | none => { host with now := finish }
    | some deadline =>
      if finish < deadline then { host with now := finish }
      else (host.fire deadline).settle.advanceTo finish n

/-- Move the clock by so many milliseconds.  Every deadline is later than the time at which it was
set, so there are at most as many as milliseconds. -/
def advance (host : Host) (milliseconds : Nat) : Host :=
  host.advanceTo (host.now + milliseconds) milliseconds

/-! ## Starting and stopping -/

/-- A host that lets clients in. -/
def serve (settings : Settings) (application : Application) (address : String) : Host :=
  let host :=
    { new settings application address with
      acceptor := .new settings.backoff, pacing := .rounds turnsPerRound }
  ((host.report (.listening address)).wake .acceptor).settle

/-- Stop: let in no more clients, close every connection, and wait until nothing is left. -/
def stop (host : Host) : Host :=
  let host := (host.report (.stopping host.address)).refuse
  (host.request .closeAll).1.settle.report (.stopped host.address)

end WebSocket.Host
