import WebSocket.Session.Engine

/-!
# Reads and writes in flight

A job is an operation under way.  Each step looks first whether the job has been given up, then
takes what the stream has or puts on it what it has room for.  A read ends with its first octets, a
write with its last.  Before a read its input gets the room that settles how much it takes at
most.
-/

namespace WebSocket

structure Job where
  operation : Operation
  /-- What a write has still to put on its stream. -/
  unsent : Bytes
  /-- Whether the operation has been given up. -/
  cancelled : Bool
  deriving DecidableEq

namespace Job

/-- An operation of which nothing is done yet; `underway` tells whether a payload with a certain
mark is still under way. -/
def new (underway : Loan → Bool) (operation : Operation) : Job :=
  match operation with
  | .read id reader input =>
    let input := input.prepare Connection.readChunk fun serial => underway ⟨id, serial⟩
    ⟨.read id reader input, [], false⟩
  | .write _ _ outgoing => ⟨operation, outgoing.frame.wire, false⟩

def id (job : Job) : ConnectionId :=
  match job.operation with
  | .read id .. => id
  | .write id _ _ => id

def transport (job : Job) : Transport :=
  match job.operation with
  | .read _ reader .. => reader
  | .write _ writer _ => writer

def isRead (job : Job) : Bool :=
  match job.operation with
  | .read .. => true
  | .write .. => false

/-- The mark of the payload that a write puts on its stream. -/
def loan? (job : Job) : Option Loan :=
  match job.operation with
  | .read .. => none
  | .write _ _ outgoing => outgoing.loan

/-- One step of a job on its link: the completion, or the job as it then waits. -/
def step (job : Job) (link : Link) : Link × (Job ⊕ Completion) :=
  match job.operation with
  | .read id reader input =>
    if job.cancelled then (link, .inr (.read id reader input (.error .aborted)))
    else
      match link.inbound.read input.room with
      | (pipe, .octets data) =>
        let input := input.append data
        ({ link with inbound := pipe }, .inr (.read id reader input (.ok data.length)))
      | (_, .ended) => (link, .inr (.read id reader input (.ok 0)))
      | (_, .nothing) => (link, .inl job)
  | .write id writer _ =>
    if job.cancelled then (link, .inr (.write id writer (.error .aborted)))
    else
      match link.outbound.write job.unsent with
      | (_, .broken) => (link, .inr (.write id writer (.error .brokenPipe)))
      | (_, .full) => (link, .inl job)
      | (pipe, .accepted n) =>
        let link := { link with outbound := pipe }
        let unsent := job.unsent.drop n
        if unsent.isEmpty then (link, .inr (.write id writer (.ok ())))
        else (link, .inl { job with unsent := unsent })

end Job

end WebSocket
