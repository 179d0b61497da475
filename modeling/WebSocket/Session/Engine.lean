import WebSocket.Session.Metrics
import WebSocket.Session.Notice
import WebSocket.Session.Table

/-!
# The protocol engine

The engine owns the table of connections and handles one piece of mail at a time: a stream that has
been let in, a read or a write that has ended, or a request of the application.  `Engine.dispatch`
gives the engine after it and its effects, in their order: events for the application, frames that
join a queue, reads and writes to begin or to give up, samples and notices.

Input is handled frame after frame by `Connection.consume`, which stops when no whole frame is left,
at the client's Close frame, or at the first violation.
-/

namespace WebSocket

/-- What an application asks of the engine. -/
inductive Request where
  /-- Send a message; the loan is that of a message that was received and goes out uncopied. -/
  | send (id : ConnectionId) (message : Message) (loan : Option Loan)
  | drop (id : ConnectionId)
  | closeAll
  deriving DecidableEq

/-- What the tasks around the engine report to it. -/
inductive Completion where
  /-- A client has been let in, and these octets of its stream are read already. -/
  | registered (transport : Transport) (peer : Option SocketAddress) (leftover : ReceiveBuffer)
  /-- A read has ended, with the count of octets it added to the input. -/
  | read (id : ConnectionId) (reader : Transport) (input : ReceiveBuffer)
      (result : Except Fault Nat)
  /-- A write has ended. -/
  | write (id : ConnectionId) (writer : Transport) (result : Except Fault Unit)

inductive Mail where
  | completion (completion : Completion)
  | request (request : Request)

/-- What the engine does besides changing its own state. -/
inductive Effect where
  /-- Tell the application. -/
  | deliver (id : ConnectionId) (event : Event)
  /-- A frame has been taken into the queue of a connection. -/
  | queued (id : ConnectionId) (frame : ServerFrame)
  /-- Begin a read or a write. -/
  | start (operation : Operation)
  /-- Give up what is in flight for a connection. -/
  | cancel (id : ConnectionId)
  /-- Let go of a stream. -/
  | release (transport : Transport)
  /-- Record a sample. -/
  | count (sample : Sample)
  /-- Report something. -/
  | report (notice : Notice)
  deriving DecidableEq

/-- The effect of an operation that may have begun. -/
def startEffect (operation : Option Operation) : List Effect := (operation.map .start).toList

/-! ## Input of one connection -/

namespace Connection

/-- A connection after some of its input, the effects, and the violation that ends it if there is
one. -/
structure Handled where
  connection : Connection
  effects : List Effect
  violation : Option FrameError

/-- Queue a frame; a closed connection does not take it. -/
def answer (c : Connection) (outgoing : Outgoing) : Connection × List Effect :=
  let (after, taken, operation) := c.sendFrame outgoing
  let joined : List Effect := if taken then [.queued c.id outgoing.frame] else []
  (after, joined ++ startEffect operation)

/-- Handle one frame. -/
def receive (c : Connection) (frame : InboundFrame) : Handled :=
  match frame.opcode with
  | .text =>
    match frame.payload.toString? with
    | some s => ⟨c, [.deliver c.id (.message (.text s))], none⟩
    | none => ⟨c, [], some (.invalidUtf8 ((Utf8.fault? frame.payload).getD ⟨0, none⟩))⟩
  | .binary => ⟨c, [.deliver c.id (.message (.binary frame.payload))], none⟩
  | .ping =>
    let (c, effects) := c.answer ⟨⟨.pong, frame.payload⟩, some c.loan⟩
    ⟨c, effects, none⟩
  | .pong => ⟨c, [], none⟩
  | .close =>
    let (c, effects) := c.markClosing.answer ⟨.closeReply frame.payload, none⟩
    ⟨c, effects, none⟩
  | opcode => ⟨c, [], some (.unsupportedOpcode opcode)⟩

theorem beginWrite_decoder (c : Connection) : c.beginWrite.1.decoder = c.decoder := by
  unfold beginWrite
  split
  · rfl
  · split <;> rfl

theorem answer_decoder (c : Connection) (outgoing : Outgoing) :
    (c.answer outgoing).1.decoder = c.decoder := by
  simp only [answer, sendFrame]
  split
  · rfl
  · split
    · exact beginWrite_decoder { c with queue := c.queue.push outgoing }
    · rfl

/-- Handling a frame leaves the decoder as it is. -/
theorem receive_decoder (c : Connection) (frame : InboundFrame) :
    (c.receive frame).connection.decoder = c.decoder := by
  unfold receive
  split
  · split <;> rfl
  · rfl
  · exact answer_decoder c _
  · rfl
  · exact answer_decoder c.markClosing _
  · rfl

/-- Handle every whole frame of some octets; what is left of them becomes the input. -/
def consumeFrom (c : Connection) (octets : Bytes) : Handled :=
  if c.closed || c.closeQueued then ⟨c.withInput octets, [], none⟩
  else
    let decoded := c.decoder.decode octets
    let c' := { c with decoder := decoded.decoder }
    match _h : decoded.result with
    | .error error => ⟨c'.withInput decoded.rest, [], some error⟩
    | .ok none => ⟨c'.withInput decoded.rest, [], none⟩
    | .ok (some frame) =>
      let first := c'.receive frame
      match first.violation with
      | some error =>
        ⟨first.connection.withInput decoded.rest, .count (.frame .inbound) :: first.effects,
          some error⟩
      | none =>
        let later := first.connection.consumeFrom decoded.rest
        { later with
          effects := .count (.frame .inbound) :: (first.effects ++ later.effects) }
termination_by octets.length + c.decoder.awaiting.debt
decreasing_by
  have := Decoder.decode_frame _h
  rw [receive_decoder, this.1]
  exact this.2

/-- Handle every whole frame of the input. -/
def consume (c : Connection) : Handled :=
  if 0 < c.lack then ⟨c.askForPayload, [], none⟩ else c.consumeFrom c.input.toList

end Connection

/-! ## The engine -/

/-- The owner of all connections. -/
structure Engine where
  table : Table
  /-- Whether all connections have been told to close; no more are let in then. -/
  stopping : Bool
  deriving DecidableEq

namespace Engine

def new (limit : Nat) : Engine := ⟨.new limit, false⟩

def isDone (e : Engine) : Bool := e.stopping && e.table.isEmpty

/-- Put a changed connection back into the table. -/
def put (e : Engine) (id : ConnectionId) (c : Connection) : Engine :=
  { e with table := e.table.set id c }

/-- Take a connection out of the table if it is removable. -/
def remove (e : Engine) (id : ConnectionId) : Engine × List Effect :=
  match e.table.erase? id with
  | none => (e, [])
  | some (table, c) =>
    ({ e with table := table }, .count .closed :: (c.reader.map Effect.release).toList)

/-- Close a connection, tell the application the first time, and remove the connection once
nothing is in flight.  Every end of a connection comes to pass here. -/
def drop (e : Engine) (id : ConnectionId) : Engine × List Effect :=
  match e.table.find? id with
  | none => (e, [])
  | some c =>
    let (c, first) := c.close
    let told : List Effect :=
      if first then [.cancel id, .report (.closed id), .deliver id .disconnect] else []
    let (e, removal) := (e.put id c).remove id
    (e, told ++ removal)

/-- Close a connection whose client broke a rule. -/
def violate (e : Engine) (id : ConnectionId) (error : FrameError) : Engine × List Effect :=
  let (e, effects) := e.drop id
  (e, .report (.violation id error) :: .count (.error .protocol) :: effects)

/-- Close a connection whose stream failed. -/
def fail (e : Engine) (id : ConnectionId) (notice : Notice) : Engine × List Effect :=
  let (e, effects) := e.drop id
  (e, .report notice :: .count (.error .io) :: effects)

/-- Handle the input of a connection, and read more of it. -/
def process (e : Engine) (id : ConnectionId) : Engine × List Effect :=
  match e.table.find? id with
  | none => (e, [])
  | some c =>
    let handled := c.consume
    match handled.violation with
    | some error =>
      let (e, effects) := (e.put id handled.connection).violate id error
      (e, handled.effects ++ effects)
    | none =>
      let (c, operation) := handled.connection.beginRead
      (e.put id c, handled.effects ++ startEffect operation)

/-- Let in a client, unless the engine is stopping. -/
def register (e : Engine) (transport : Transport) (peer : Option SocketAddress)
    (leftover : ReceiveBuffer) : Engine × List Effect :=
  if e.stopping then (e, [.release transport])
  else
    let (table, id) := e.table.add transport peer leftover
    let (e, effects) := { e with table := table }.process id
    (e, .count .opened :: .report (.opened id peer) :: .deliver id .newConnection :: effects)

/-- Queue a message for a connection; one for a connection that is closed or unknown is lost. -/
def send (e : Engine) (id : ConnectionId) (message : Message) (loan : Option Loan) :
    Engine × List Effect :=
  match e.table.find? id with
  | none => (e, [])
  | some c =>
    let (c, effects) := c.answer ⟨message.frame, loan⟩
    (e.put id c, effects)

/-- Take back a read. -/
def onRead (e : Engine) (id : ConnectionId) (reader : Transport) (input : ReceiveBuffer)
    (result : Except Fault Nat) : Engine × List Effect :=
  match e.table.find? id with
  | none => (e, [.report (.strayRead id)])
  | some c =>
    let c := c.finishRead reader input
    let e := e.put id c
    if c.closed then e.drop id
    else
      match result with
      | .ok 0 => e.drop id
      | .ok _ => e.process id
      | .error fault => e.fail id (.readFailed id fault)

/-- Take back a write, and go on with the next frame; after the answer to the client's Close frame
the connection closes. -/
def onWrite (e : Engine) (id : ConnectionId) (writer : Transport) (result : Except Fault Unit) :
    Engine × List Effect :=
  match e.table.find? id with
  | none => (e, [.report (.strayWrite id)])
  | some c =>
    let (c, written) := c.finishWrite writer
    let e := e.put id c
    if c.closed then e.drop id
    else
      match result with
      | .error fault => e.fail id (.writeFailed id fault)
      | .ok () =>
        let (e, effects) :=
          if written.any (·.opcode == .close) then e.drop id
          else
            let (c, operation) := c.beginWrite
            (e.put id c, startEffect operation)
        (e, .count (.frame .outbound) :: effects)

def dropAll (e : Engine) : List ConnectionId → Engine × List Effect
  | [] => (e, [])
  | id :: later =>
    let (e, effects) := e.drop id
    let (e, more) := e.dropAll later
    (e, effects ++ more)

/-- Close every connection and let in no more. -/
def closeAll (e : Engine) : Engine × List Effect :=
  let count := e.table.size
  let (e, effects) := { e with stopping := true }.dropAll e.table.ids
  (e, .report (.closingAll count) :: effects)

def dispatch (e : Engine) : Mail → Engine × List Effect
  | .completion (.registered transport peer leftover) => e.register transport peer leftover
  | .completion (.read id reader input result) => e.onRead id reader input result
  | .completion (.write id writer result) => e.onWrite id writer result
  | .request (.send id message loan) => e.send id message loan
  | .request (.drop id) => e.drop id
  | .request .closeAll => e.closeAll

def run (e : Engine) : List Mail → Engine × List Effect
  | [] => (e, [])
  | mail :: later =>
    let (e, effects) := e.dispatch mail
    let (e, more) := e.run later
    (e, effects ++ more)

end Engine

end WebSocket
