import WebSocket.Hosting.Job
import WebSocket.Session.Desk

/-!
# A table worked by hand

A workbench is a desk with the streams of its connections.  Nothing happens of its own accord:
operations make progress when the workbench is settled, and what has ended is held until it is given
back to its connection.
-/

namespace WebSocket

/-- A desk, its streams and its operations. -/
structure Workbench where
  desk : Desk
  /-- The streams of all connections there ever were, in the order of their numbers. -/
  links : List Link
  jobs : List Job
  /-- Operations that have ended and are not given back yet. -/
  held : List Completion

namespace Workbench

/-- A workbench with an empty table, when there are no connections elsewhere. -/
def new (limit : Nat) : Workbench := ⟨.new limit ⟨0, []⟩, [], [], []⟩

def table (b : Workbench) : Table := b.desk.table

def metrics (b : Workbench) : Metrics := b.desk.tally.metrics

def stream (id : ConnectionId) : Transport := id.value - 1

/-- Do one thing, and set to work on the operation that begins. -/
def act (b : Workbench) (act : Act) : Workbench × Answer :=
  let (desk, operation, answer) := b.desk.act act
  ({ b with
      desk := desk
      jobs := b.jobs ++ (operation.map (Job.new fun _ => false)).toList }, answer)

def add (b : Workbench) (capacity : Nat) (peer : Option SocketAddress) (leftover : Bytes) :
    Workbench × ConnectionId :=
  let (after, answer) := b.act (.add b.links.length peer (.ofOctets leftover))
  ({ after with links := b.links ++ [.new capacity] },
    match answer with
    | .added id => id
    | _ => ⟨0⟩)

/-- Whether one was told that something came to pass. -/
def wasTold : Answer → Bool
  | .told done => done
  | _ => false

/-- Take a connection out of the table if it is removable; the result tells. -/
def erase (b : Workbench) (id : ConnectionId) : Workbench × Bool :=
  let (after, answer) := b.act (.erase id)
  if wasTold answer then
    ({ after with links := b.links.modify (stream id) Link.release }, true)
  else (after, false)

def cancel (b : Workbench) (id : ConnectionId) : Workbench :=
  { b with
    jobs := b.jobs.map fun job => if job.id = id then { job with cancelled := true } else job }

def beginRead (b : Workbench) (c : Connection) : Workbench := (b.act (.on c.id .beginRead)).1

def beginWrite (b : Workbench) (c : Connection) : Workbench := (b.act (.on c.id .beginWrite)).1

/-- Queue a frame; the result tells whether the connection took it. -/
def send (b : Workbench) (c : Connection) (frame : ServerFrame) : Workbench × Bool :=
  let (after, answer) := b.act (.on c.id (.send ⟨frame, none⟩))
  (after, wasTold answer)

/-- Close a connection; the result tells whether it was not closed before. -/
def close (b : Workbench) (c : Connection) : Workbench × Bool :=
  let (after, answer) := b.act (.on c.id .close)
  (if wasTold answer then after.cancel c.id else after, wasTold answer)

/-- Close every connection, and give the numbers of those that were not closed before. -/
def closeAll (b : Workbench) : Workbench × List ConnectionId :=
  let (after, answer) := b.act .closeAll
  match answer with
  | .closed ids => (ids.foldl cancel after, ids)
  | _ => (after, [])

/-- Note that the client's Close frame is being answered. -/
def markClosing (b : Workbench) (c : Connection) : Workbench := (b.act (.on c.id .markClosing)).1

def nextFrame (b : Workbench) (c : Connection) :
    Workbench × Except FrameError (Option InboundFrame) :=
  let (after, answer) := b.act (.on c.id .nextFrame)
  (after,
    match answer with
    | .decoded result => result
    | _ => .ok none)

/-! ## Operations in flight -/

/-- Let jobs go on in order: the links after it, the jobs that wait, and what has ended. -/
def runJobs (links : List Link) : List Job → List Link × List Job × List Completion
  | [] => (links, [], [])
  | job :: later =>
    match links[job.transport]? with
    | none => runJobs links later
    | some link =>
      let (link, outcome) := job.step link
      let (links, waiting, ended) := runJobs (links.set job.transport link) later
      match outcome with
      | .inl job => (links, job :: waiting, ended)
      | .inr completion => (links, waiting, completion :: ended)

/-- The rank of a completion among those that come at the same time: by connection, and reads
before writes. -/
def rank : Completion → Nat
  | .read id .. => 2 * id.value
  | .write id .. => 2 * id.value + 1
  | .registered .. => 0

/-- Let operations go on until none can; the result is what has ended. -/
def settle (b : Workbench) : Workbench × List Completion :=
  let (links, waiting, ended) := runJobs b.links b.jobs
  let ended := ended.mergeSort fun x y => rank x ≤ rank y
  ({ b with links := links, jobs := waiting, held := b.held ++ ended }, ended)

/-- Give a read that has ended back to its connection; the result is how much input there is. -/
def finishRead (b : Workbench) (c : Connection) : Workbench × Option Nat :=
  match b.held.find? fun x => rank x = 2 * c.id.value with
  | some (.read _ _ input _) =>
    let held := b.held.filter fun x => rank x ≠ 2 * c.id.value
    (({ b with held := held }.act (.on c.id (.finishRead input))).1, some input.size)
  | _ => (b, none)

/-- Give a write that has ended back to its connection; the result is the frame that leaves the
queue, if there is such a write. -/
def finishWrite (b : Workbench) (c : Connection) : Workbench × Option (Option ServerFrame) :=
  match b.held.find? fun x => rank x = 2 * c.id.value + 1 with
  | some (.write ..) =>
    let held := b.held.filter fun x => rank x ≠ 2 * c.id.value + 1
    let (after, answer) := { b with held := held }.act (.on c.id .finishWrite)
    (after,
      match answer with
      | .written frame => some frame
      | _ => none)
  | _ => (b, none)

/-! ## Peers -/

/-- The stream of a connection whose peer is still there. -/
def peerLink? (b : Workbench) (id : ConnectionId) : Option Link :=
  if id.value = 0 then none
  else
    match b.links[stream id]? with
    | some link => if link.attended then some link else none
    | none => none

/-- A peer writes once, as much as fits. -/
def peerWrite (b : Workbench) (id : ConnectionId) (link : Link) (data : Bytes) :
    Workbench × Pipe.Written :=
  let (pipe, written) := link.inbound.write data
  ({ b with links := b.links.set (stream id) { link with inbound := pipe } }, written)

/-- A peer takes all there is, or `most` octets of it. -/
def peerRead (b : Workbench) (id : ConnectionId) (link : Link) (most : Option Nat) :
    Workbench × Bytes × Bool :=
  let (pipe, data, ended) := link.outbound.readAvailable most
  ({ b with links := b.links.set (stream id) { link with outbound := pipe } }, data, ended)

def peerClose (b : Workbench) (id : ConnectionId) : Workbench :=
  { b with links := b.links.modify (stream id) Link.hangUp }

end Workbench

end WebSocket
