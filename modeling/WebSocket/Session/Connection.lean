import WebSocket.Session.Event
import WebSocket.Transport.Address
import WebSocket.Transport.Pipe
import WebSocket.Transport.ReceiveBuffer
import WebSocket.Wire.Decoder

/-!
# Connections

A connection owns the two halves of its stream.  A read or a write takes a half away while it is in
flight and brings it back when it ends, so at most one of each is in flight; the frame that is
being written stays at the front of the queue until then.  Closing empties the queue and gives up
what is in flight, and the connection can be removed once both halves are back.

A read also takes the input away.  How much it takes from the stream at most is settled when it
begins: the input then gets the room that the decoder asked for and room for `readChunk` octets, and
that depends on whether a payload taken from it is still under way.  Such a payload bears a `Loan`.
-/

namespace WebSocket

/-- The mark of a payload that was not copied: it lies in the block that the input of `lender` had
after leaving `serial` blocks behind. -/
structure Loan where
  lender : ConnectionId
  serial : Nat
  deriving DecidableEq, Repr

/-- A frame on its way to the client. -/
structure Outgoing where
  frame : ServerFrame
  loan : Option Loan
  deriving DecidableEq

/-- A read or a write that a connection begins, with the half of the stream that it takes away. -/
inductive Operation where
  /-- Add octets from the stream to the input. -/
  | read (id : ConnectionId) (reader : Transport) (input : ReceiveBuffer)
  /-- Put a whole frame on the stream. -/
  | write (id : ConnectionId) (writer : Transport) (outgoing : Outgoing)
  deriving DecidableEq

/-- Where a connection stands between its opening and its removal. -/
inductive Lifecycle where
  /-- It reads and writes. -/
  | live
  /-- It is closed, but a read or a write is still in flight. -/
  | closing
  /-- It is closed and nothing is in flight. -/
  | removable
  deriving DecidableEq, Repr

/-- One session with a client. -/
structure Connection where
  id : ConnectionId
  peer : Option SocketAddress
  /-- The half to read from, unless a read has it. -/
  reader : Option Transport
  /-- The half to write to, unless a write has it. -/
  writer : Option Transport
  /-- Octets received and not yet decoded. -/
  input : ReceiveBuffer
  decoder : Decoder
  /-- Frames to write, the one in flight first. -/
  queue : Fifo Outgoing
  closed : Bool
  reading : Bool
  sending : Bool
  /-- Whether the answer to the client's Close frame is in the queue or written. -/
  closeQueued : Bool
  deriving DecidableEq

namespace Connection

/-- A connection on a stream whose first octets have been read already. -/
def new (id : ConnectionId) (transport : Transport) (peer : Option SocketAddress)
    (leftover : ReceiveBuffer) (limit : Nat) : Connection where
  id := id
  peer := peer
  reader := some transport
  writer := some transport
  input := leftover
  decoder := .new limit
  queue := .empty
  closed := false
  reading := false
  sending := false
  closeQueued := false

def lifecycle (c : Connection) : Lifecycle :=
  if c.closed then if c.reading || c.sending then .closing else .removable else .live

def isRemovable (c : Connection) : Bool := c.lifecycle == .removable

/-- The mark of a payload taken from the input. -/
def loan (c : Connection) : Loan := ⟨c.id, c.input.serial⟩

/-- Whether a frame in the queue bears a mark. -/
def carries (c : Connection) (loan : Loan) : Bool := c.queue.any fun out => out.loan == some loan

/-- The room that a read has at least. -/
def readChunk : Nat := 4096

/-- How much room the decoder asks for at most. -/
def payloadChunk : Nat := 65536

/-- How many octets of a payload under way are not there yet. -/
def lack (c : Connection) : Nat :=
  match c.decoder.awaiting with
  | .payload head => head.length - c.input.size
  | .header => 0

/-- Begin a read, unless one is in flight, the connection is closed, or the client has said that
nothing more comes. -/
def beginRead (c : Connection) : Connection × Option Operation :=
  if c.closed || c.closeQueued then (c, none)
  else
    match c.reader with
    | none => (c, none)
    | some reader =>
      ({ c with reader := none, reading := true, input := c.input.away },
        some (.read c.id reader c.input))

/-- Begin to write the first frame of the queue, unless a write is in flight or the connection is
closed. -/
def beginWrite (c : Connection) : Connection × Option Operation :=
  if c.closed || c.sending then (c, none)
  else
    match c.queue.head?, c.writer with
    | some outgoing, some writer =>
      ({ c with writer := none, sending := true }, some (.write c.id writer outgoing))
    | _, _ => (c, none)

/-- Put a frame at the end of the queue, and begin to write it if it is alone there.  A closed
connection takes no frame; the result tells. -/
def sendFrame (c : Connection) (outgoing : Outgoing) : Connection × Bool × Option Operation :=
  if c.closed then (c, false, none)
  else
    let c := { c with queue := c.queue.push outgoing }
    if c.queue.size = 1 then
      let (c, operation) := c.beginWrite
      (c, true, operation)
    else (c, true, none)

/-- Take back the half and the input from a read that has ended. -/
def finishRead (c : Connection) (reader : Transport) (input : ReceiveBuffer) : Connection :=
  { c with reader := some reader, input := input, reading := false }

/-- Take back the half from a write that has ended, and the frame off the queue unless the
connection has closed meanwhile. -/
def finishWrite (c : Connection) (writer : Transport) : Connection × Option ServerFrame :=
  let c := { c with writer := some writer, sending := false }
  if c.closed then (c, none)
  else
    match c.queue.pop? with
    | none => (c, none)
    | some (outgoing, later) => ({ c with queue := later }, some outgoing.frame)

/-- Close the connection; the result tells whether it was not closed before. -/
def close (c : Connection) : Connection × Bool :=
  if c.closed then (c, false) else ({ c with closed := true, queue := .empty }, true)

/-- Note that the answer to the client's Close frame is on its way, so that nothing more is
read. -/
def markClosing (c : Connection) : Connection := { c with closeQueued := true }

/-- Ask for room as far as a payload is not there yet. -/
def askForPayload (c : Connection) : Connection :=
  { c with input := c.input.ask (min c.lack payloadChunk) }

/-- The connection when all input but `rest` is used up. -/
def withInput (c : Connection) (rest : Bytes) : Connection :=
  { c with input := c.input.keep rest }.askForPayload

def nextFrame (c : Connection) : Connection × Except FrameError (Option InboundFrame) :=
  let decoded := c.decoder.decode c.input.toList
  ({ c with decoder := decoded.decoder }.withInput decoded.rest, decoded.result)

/-- There is nothing to decode while the payload is not whole. -/
theorem decode_of_lack_pos {c : Connection} (h : 0 < c.lack) :
    c.decoder.decode c.input.toList = ⟨.ok none, c.decoder, c.input.toList⟩ := by
  unfold lack at h
  split at h
  · rename_i head hawaiting
    have short : c.input.toList.length < head.length := by
      rw [← c.input.size_eq_length]
      omega
    rw [← takeExactly_eq_none_iff] at short
    simp only [Decoder.decode, hawaiting, Decoder.decodePayload, short]
    rw [← hawaiting]
  · omega

end Connection

end WebSocket
