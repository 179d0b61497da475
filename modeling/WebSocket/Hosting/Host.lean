import WebSocket.Hosting.Acceptor
import WebSocket.Hosting.Application
import WebSocket.Hosting.Job
import WebSocket.Hosting.Settings
import WebSocket.Opening.Attempt

/-!
# Hosts

A host is an engine with everything around it: the application, the reads and writes in flight, the
clients that are being let in, the acceptor, and the streams to all clients, under a clock of its
own.  Its tasks take turns.  Those that can go on stand in `ready`, and `Pacing` says which of them
comes next.

This module holds the state of a host and carries out the effects that its engine asks for
(`Host.perform`).
-/

namespace WebSocket

inductive Task where
  | engine
  /-- The clients, who are outside the host but take part in its rounds. -/
  | clients
  | acceptor
  | reader (id : ConnectionId)
  | writer (id : ConnectionId)
  | opening (transport : Transport)
  deriving DecidableEq

def Job.task (job : Job) : Task := if job.isRead then .reader job.id else .writer job.id

/-- A client that is being let in. -/
structure Attempt where
  transport : Transport
  peer : Option SocketAddress
  /-- When the client's time is over, once the clock for it runs. -/
  deadline : Option Nat
  phase : Opening.Phase

/-- A point in time at which a task can go on. -/
structure Timer where
  deadline : Nat
  task : Task
  deriving DecidableEq

/-- How turns are given out to the tasks that can go on. -/
inductive Pacing where
  /-- First come, first served. -/
  | even
  /-- In rounds.  When a round begins, the clients line up behind the tasks that can go on, and the
  engine has its turn if it can go on.  Then the others have theirs, first come, first served, until
  none of them can go on or the round has no turns left. -/
  | rounds (left : Nat)
  deriving DecidableEq, Repr

/-- What can be told of a host from outside. -/
structure Records where
  /-- What the application was told, the latest first. -/
  history : List (ConnectionId × Event)
  /-- What was reported, the latest first. -/
  notices : List Notice
  metrics : Metrics
  /-- How many connections are in the table. -/
  openCount : Nat
  /-- When the acceptor asked for a stream, the latest first. -/
  asked : List Nat

namespace Records

def empty : Records := ⟨[], [], [], 0, []⟩

def count (r : Records) (sample : Sample) : Records :=
  { r with
    metrics := r.metrics.record sample
    openCount :=
      match sample with
      | .opened => r.openCount + 1
      | .closed => r.openCount - 1
      | _ => r.openCount }

def report (r : Records) (notice : Notice) : Records := { r with notices := notice :: r.notices }

/-- What the application was told since earlier records, in order. -/
def eventsSince (r earlier : Records) : List (ConnectionId × Event) :=
  (r.history.take (r.history.length - earlier.history.length)).reverse

/-- The lines of the log since earlier records, in order. -/
def linesSince (r earlier : Records) : List String :=
  (r.notices.take (r.notices.length - earlier.notices.length)).reverse.flatMap (·.lines)

end Records

/-- An engine with everything around it. -/
structure Host where
  settings : Settings
  application : Application
  /-- The address the host listens at, as it is reported. -/
  address : String
  /-- The time in milliseconds. -/
  now : Nat
  engine : Engine
  /-- Whether the engine takes mail. -/
  running : Bool
  completions : List Completion
  requests : Fifo Request
  /-- The streams to all clients, in the order in which they came. -/
  links : List Link
  jobs : List Job
  attempts : List Attempt
  acceptor : Acceptor
  arrivals : List Arrival
  /-- Whether no more clients are to be let in. -/
  shutdown : Bool
  timers : List Timer
  /-- The task whose turn it is. -/
  current : Option Task
  /-- Whether that task lets clients in, and has found that it may since it last looked. -/
  cleared : Bool
  /-- The tasks that can go on. -/
  ready : List Task
  pacing : Pacing
  records : Records

namespace Host

/-! ## Parts of a host -/

/-- A host without clients whose acceptor does not run. -/
def new (settings : Settings) (application : Application) (address : String) : Host where
  settings := settings
  application := application
  address := address
  now := 0
  engine := .new settings.payloadLimit
  running := true
  completions := []
  requests := .empty
  links := []
  jobs := []
  attempts := []
  acceptor := (Acceptor.new settings.backoff).finish
  arrivals := []
  shutdown := false
  timers := []
  current := none
  cleared := false
  ready := []
  pacing := .even
  records := .empty

/-- Let a task go on when its turn comes, unless it is its turn already. -/
def wake (host : Host) (task : Task) : Host :=
  if host.current = some task ∨ task ∈ host.ready then host
  else { host with ready := host.ready ++ [task] }

def wakeAll (host : Host) (tasks : List Task) : Host := tasks.foldl wake host

def setTimer (host : Host) (timer : Timer) : Host := { host with timers := host.timers ++ [timer] }

def count (host : Host) (sample : Sample) : Host :=
  { host with records := host.records.count sample }

def report (host : Host) (notice : Notice) : Host :=
  { host with records := host.records.report notice }

def changeLink (host : Host) (transport : Transport) (f : Link → Link) : Host :=
  { host with links := host.links.modify transport f }

def release (host : Host) (transport : Transport) : Host := host.changeLink transport Link.release

def addLink (host : Host) (link : Link) : Host × Transport :=
  ({ host with links := host.links ++ [link] }, host.links.length)

/-- Report to the engine.  If it takes no more mail, the stream of a client that was to be let in is
let go. -/
def complete (host : Host) (completion : Completion) : Host :=
  if host.running then
    { host with completions := host.completions ++ [completion] }.wake .engine
  else
    match completion with
    | .registered transport _ _ => host.release transport
    | _ => host

/-- Ask something of the engine; the result tells whether it takes mail. -/
def request (host : Host) (request : Request) : Host × Bool :=
  if host.running then
    ({ host with requests := host.requests.push request }.wake .engine, true)
  else (host, false)

/-- Bring in a stream without an opening handshake; the result tells whether the engine takes
mail. -/
def connect (host : Host) (capacity : Nat) (leftover : Bytes) : Host × Bool :=
  let (host, transport) := host.addLink (.new capacity)
  (host.complete (.registered transport none (.ofOctets leftover)), host.running)

/-! ## Effects -/

/-- The mark of a message that a connection has just received: a text is a copy, but other octets
are not. -/
def loanOf (host : Host) (id : ConnectionId) : Message → Option Loan
  | .text _ => none
  | .binary _ => (host.engine.table.find? id).map (·.loan)

def post (id : ConnectionId) (event : Event) (host : Host) : Post → Host
  | .request request => (host.request request).1
  | .forward target =>
    match event with
    | .message message => (host.request (.send target message (host.loanOf id message))).1
    | _ => host
  | .connect leftover => (host.connect Link.defaultCapacity leftover).1

/-- Tell the application of an event, and carry out its reaction. -/
def deliver (host : Host) (id : ConnectionId) (event : Event) : Host :=
  let records := host.records
  let reaction := host.application records.history id event
  let host := { host with records := { records with history := (id, event) :: records.history } }
  let host := reaction.posts.foldl (post id event) host
  match reaction.panic with
  | none => host
  | some payload => (host.count (.error .panic)).report (.panicked id event payload)

/-- Whether a request bears a mark. -/
def bears (loan : Loan) : Request → Bool
  | .send _ _ own => own == some loan
  | _ => false

/-- Whether a payload with a mark is under way: asked to be sent, in a queue, or being written. -/
def underway (host : Host) (loan : Loan) : Bool :=
  host.requests.any (bears loan) || host.engine.table.carries loan
    || host.jobs.any fun job => job.loan? == some loan

def start (host : Host) (operation : Operation) : Host :=
  let job := Job.new host.underway operation
  { host with jobs := host.jobs ++ [job] }.wake job.task

def cancel (host : Host) (id : ConnectionId) : Host :=
  let jobs : List Job :=
    host.jobs.map fun job => if job.id = id then { job with cancelled := true } else job
  let given := jobs.filter fun job => job.id = id
  { host with jobs := jobs }.wakeAll (given.map Job.task)

/-- Carry out an effect.  A frame that has joined a queue stays there until its write begins. -/
def perform (host : Host) : Effect → Host
  | .deliver id event => host.deliver id event
  | .queued _ _ => host
  | .start operation => host.start operation
  | .cancel id => host.cancel id
  | .release transport => host.release transport
  | .count sample => host.count sample
  | .report notice => host.report notice

end Host

end WebSocket
