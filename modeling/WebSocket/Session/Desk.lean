import WebSocket.Session.Metrics
import WebSocket.Session.Table

/-!
# Working on a table

A desk is a table together with what its connections have begun and with the tally that is kept of
connections.  `Desk.act` does one thing to the table or to a connection in it, in whatever order its
owner likes.  A read or a write that has begun is in flight until it is given back to its
connection, and nothing else can be given back.
-/

namespace WebSocket

/-- What is counted of all connections there are. -/
structure Tally where
  /-- How many connections there are.  The count has 64 bits. -/
  present : UInt64
  metrics : Metrics
  deriving DecidableEq

namespace Tally

def enter (tally : Tally) : Tally := ⟨tally.present + 1, tally.metrics.record .opened⟩

def leave (tally : Tally) : Tally := ⟨tally.present - 1, tally.metrics.record .closed⟩

end Tally

namespace Operation

/-- The half that a read of a certain connection has. -/
def reader? (id : ConnectionId) : Operation → Option Transport
  | read other reader _ => if other = id then some reader else none
  | write .. => none

/-- The half that a write of a certain connection has. -/
def writer? (id : ConnectionId) : Operation → Option Transport
  | read .. => none
  | write other writer _ => if other = id then some writer else none

end Operation

/-- Something done to one connection. -/
inductive Deed where
  | beginRead
  | beginWrite
  | send (outgoing : Outgoing)
  | markClosing
  | nextFrame
  | close
  /-- The read in flight is given back, with the input as it is then. -/
  | finishRead (input : ReceiveBuffer)
  /-- The write in flight is given back. -/
  | finishWrite
  deriving DecidableEq

/-- Something done to a table. -/
inductive Act where
  | add (transport : Transport) (peer : Option SocketAddress) (leftover : ReceiveBuffer)
  | erase (id : ConnectionId)
  | closeAll
  | on (id : ConnectionId) (deed : Deed)
  deriving DecidableEq

/-- What one is told of what one has done. -/
inductive Answer where
  | nothing
  /-- Whether it came to pass. -/
  | told (done : Bool)
  | added (id : ConnectionId)
  | closed (ids : List ConnectionId)
  | decoded (result : Except FrameError (Option InboundFrame))
  | written (frame : Option ServerFrame)
  /-- There is no such connection, or nothing to give back to it. -/
  | unknown

/-- What comes of a deed. -/
structure Done where
  connection : Connection
  /-- The operations in flight afterwards. -/
  inFlight : List Operation
  /-- The operation that begins. -/
  begun : Option Operation
  answer : Answer

/-- Do something to a connection, while some operations are in flight. -/
def Connection.undergo (c : Connection) (inFlight : List Operation) : Deed → Done
  | .beginRead =>
    let (c, operation) := c.beginRead
    ⟨c, inFlight ++ operation.toList, operation, .nothing⟩
  | .beginWrite =>
    let (c, operation) := c.beginWrite
    ⟨c, inFlight ++ operation.toList, operation, .nothing⟩
  | .send outgoing =>
    let (c, taken, operation) := c.sendFrame outgoing
    ⟨c, inFlight ++ operation.toList, operation, .told taken⟩
  | .markClosing => ⟨c.markClosing, inFlight, none, .nothing⟩
  | .nextFrame =>
    let (c, result) := c.nextFrame
    ⟨c, inFlight, none, .decoded result⟩
  | .close =>
    let (c, first) := c.close
    ⟨c, inFlight, none, .told first⟩
  | .finishRead input =>
    match inFlight.findSome? (·.reader? c.id) with
    | none => ⟨c, inFlight, none, .unknown⟩
    | some reader =>
      ⟨c.finishRead reader input, inFlight.filter fun o => (o.reader? c.id).isNone, none, .nothing⟩
  | .finishWrite =>
    match inFlight.findSome? (·.writer? c.id) with
    | none => ⟨c, inFlight, none, .unknown⟩
    | some writer =>
      let (after, frame) := c.finishWrite writer
      ⟨after, inFlight.filter fun o => (o.writer? c.id).isNone, none, .written frame⟩

/-- A table, what its connections have begun, and the tally. -/
structure Desk where
  table : Table
  /-- The operations that have begun and are not given back yet. -/
  inFlight : List Operation
  tally : Tally
  deriving DecidableEq

namespace Desk

/-- A desk with an empty table, when a tally stands at some value. -/
def new (limit : Nat) (tally : Tally) : Desk := ⟨.new limit, [], tally⟩

/-- Do one thing: the desk afterwards, the operation that begins, and the answer. -/
def act (d : Desk) : Act → Desk × Option Operation × Answer
  | .add transport peer leftover =>
    let (table, id) := d.table.add transport peer leftover
    ({ d with table := table, tally := d.tally.enter }, none, .added id)
  | .erase id =>
    match d.table.erase? id with
    | none => (d, none, .told false)
    | some (table, _) => ({ d with table := table, tally := d.tally.leave }, none, .told true)
  | .closeAll =>
    let (table, ids) := d.table.closeAll
    ({ d with table := table }, none, .closed ids)
  | .on id deed =>
    match d.table.find? id with
    | none => (d, none, .unknown)
    | some c =>
      let done := c.undergo d.inFlight deed
      ({ d with table := d.table.set id done.connection, inFlight := done.inFlight }, done.begun,
        done.answer)

/-- Do one thing after another, and note the answers. -/
def run (d : Desk) : List Act → Desk × List (Act × Answer)
  | [] => (d, [])
  | act :: later =>
    let (next, _, answer) := d.act act
    let (last, log) := next.run later
    (last, (act, answer) :: log)

/-- The tally when the table is thrown away with all its connections. -/
def discard (d : Desk) : Tally := d.table.entries.foldl (fun tally _ => tally.leave) d.tally

end Desk

end WebSocket
