import WebSocket.Opening.Negotiation
import WebSocket.Opening.RequestReader
import WebSocket.Text.Utf8
import WebSocket.Transport.Pipe
import WebSocket.Transport.ReceiveBuffer
import WebSocket.Transport.Source
import WebSocket.Wire.ClientFrame

/-!
# A plain client

A client that asks for a session, sends masked frames and takes unmasked ones apart.  It also sends
what no good client would, so that a server can be tried with it.

`splitFrame` takes the first frame off the octets received so far, and `Reader.readFrame` reads
until there is one.  It reads from a source of any kind, a client from its end of a link.  A read
takes what the receive buffer has room for; the rest stays on the stream.
-/

namespace WebSocket.Peer

/-- The key of the client, which is the example of the protocol's definition. -/
def clientKey : String := "dGhlIHNhbXBsZSBub25jZQ=="

def clientMask : MaskKey := ⟨0x12, 0x34, 0x56, 0x78⟩

/-- A request for a session, with its key unless that is to be left out, and with further header
lines. -/
def upgradeRequest (key : Option String) (extra : String) : String :=
  let keyLine :=
    match key with
    | none => ""
    | some key => "Sec-WebSocket-Key: " ++ key ++ "\r\n"
  "GET /chat HTTP/1.1\r\nHost: localhost\r\nUpgrade: websocket\r\nConnection: Upgrade\r\n"
    ++ keyLine ++ "Sec-WebSocket-Version: 13\r\n" ++ extra ++ "\r\n"

/-! ## Taking frames apart -/

structure ReceivedFrame where
  opcode : Opcode
  payload : Bytes
  deriving DecidableEq, Repr

/-- What ends the client for good: no step of it follows. -/
inductive Panic where
  /-- The announced length is so great that the end of the frame has no address. -/
  | overflow
  deriving DecidableEq, Repr

def Panic.message : Panic → String
  | .overflow => "attempt to add with overflow"

/-- What stands at the front of the octets received so far. -/
inductive Split where
  | frame (frame : ReceivedFrame) (rest : Bytes)
  /-- More has to come. -/
  | incomplete
  | refused (fault : Fault)
  | panicked (panic : Panic)
  deriving DecidableEq, Repr

/-- The addresses that the client can reach. -/
def addressSpace : Nat := 0x10000000000000000

/-- Take a payload of so many octets off the octets after a header of `headerLength`. -/
def splitPayload (opcode : Opcode) (headerLength length : Nat) (body : Bytes) : Split :=
  if addressSpace ≤ headerLength + length then .panicked .overflow
  else if body.length < length then .incomplete
  else .frame ⟨opcode, body.take length⟩ (body.drop length)

/-- Take the first frame off the octets received so far. -/
def splitFrame : Bytes → Split
  | first :: second :: rest =>
    let opcode := Opcode.ofBits first
    if second &&& 0x80 ≠ 0 then
      .refused ⟨.invalidData, some "server sent a masked frame"⟩
    else if second &&& 0x7F = 126 then
      if rest.length < 2 then .incomplete
      else splitPayload opcode 4 (BigEndian.decode (rest.take 2)) (rest.drop 2)
    else if second &&& 0x7F = 127 then
      if rest.length < 8 then .incomplete
      else splitPayload opcode 10 (BigEndian.decode (rest.take 8)) (rest.drop 8)
    else splitPayload opcode 2 (second &&& 0x7F).toNat rest
  | _ => .incomplete

/-! ## Reading -/

/-- Who reads what a server sends: a stream, and what came of it. -/
structure Reader (σ : Type) where
  stream : σ
  /-- Octets received and not yet handed on. -/
  buffer : ReceiveBuffer
  deriving DecidableEq, Repr

/-- What one read comes to. -/
inductive Reading (σ : Type) where
  /-- Octets have come into the buffer. -/
  | received (reader : Reader σ)
  /-- The server has let go of the stream. -/
  | ended
  /-- Nothing came for too long. -/
  | failed (fault : Fault)

namespace Reader

variable {σ : Type}

/-- The size of the block that is received into at first. -/
def firstBlock : Nat := 1024

def start (stream : σ) : Reader σ := ⟨stream, .ofSize firstBlock⟩

variable (source : Source σ)

def receive (r : Reader σ) : Reading σ :=
  let buffer := r.buffer.refill
  match source.read r.stream buffer.room with
  | (stream, .octets data) => .received ⟨stream, buffer.append data⟩
  | (_, .ended) => .ended
  | (_, .nothing) => .failed (.ofKind .timedOut)

/-- What a read that receives octets does. -/
theorem receive_eq_received {r r' : Reader σ} (h : r.receive source = .received r') :
    ∃ data, source.read r.stream r.buffer.refill.room = (r'.stream, .octets data) ∧
      r'.buffer = r.buffer.refill.append data := by
  unfold receive at h
  dsimp only at h
  split at h
  · rename_i stream data hread
    simp only [Reading.received.injEq] at h
    subst h
    exact ⟨data, hread, rfl⟩
  · cases h
  · cases h

/-- Every read takes octets off the stream. -/
theorem unread_lt_of_received {r r' : Reader σ} (h : r.receive source = .received r') :
    (source.content r'.stream).length < (source.content r.stream).length := by
  obtain ⟨data, hread, -⟩ := receive_eq_received source h
  exact source.length_lt_of_read r.buffer.room_refill_pos hread

/-- Read until there is a whole frame, and give it; nothing at the end of the stream, also if part
of a frame is there.  A panic leaves no reader. -/
def readFrame (r : Reader σ) : Except Panic (Reader σ × Except Fault (Option ReceivedFrame)) :=
  match splitFrame r.buffer.toList with
  | .frame frame rest => .ok ({ r with buffer := r.buffer.keep rest }, .ok (some frame))
  | .refused fault => .ok (r, .error fault)
  | .panicked panic => .error panic
  | .incomplete =>
    match _h : r.receive source with
    | .received r => r.readFrame
    | .ended => .ok (r, .ok none)
    | .failed fault => .ok (r, .error fault)
termination_by (source.content r.stream).length
decreasing_by exact unread_lt_of_received source _h

/-- Read until there is a blank line, and give what comes before its end. -/
def readHead (r : Reader σ) : Reader σ × Except Fault Bytes :=
  match Opening.blankLine? r.buffer.toList with
  | some position =>
    let (head, buffer) := r.buffer.split position
    ({ r with buffer := buffer }, .ok head)
  | none =>
    match _h : r.receive source with
    | .received r => r.readHead
    | .ended => (r, .error .unexpectedEof)
    | .failed fault => (r, .error fault)
termination_by (source.content r.stream).length
decreasing_by exact unread_lt_of_received source _h

def readReply (r : Reader σ) : Reader σ × Except Fault String :=
  let (r, head) := r.readHead source
  (r, head.map Bytes.toStringRepaired)

def listOctets (octets : Bytes) : String :=
  "[" ++ String.intercalate ", " (octets.map fun octet => toString octet.toNat) ++ "]"

/-- What is wrong if octets come where the end of the stream is expected. -/
def unexpectedOctets (octets : Bytes) : Fault :=
  ⟨.invalidData, some ("unexpected bytes before close: " ++ listOctets octets)⟩

/-- Wait for the end of the stream, before which nothing may come. -/
def expectClosed (r : Reader σ) : Reader σ × Except Fault Unit :=
  if ! r.buffer.isEmpty then (r, .error (unexpectedOctets r.buffer.toList))
  else
    match r.receive source with
    | .received r => (r, .error (unexpectedOctets r.buffer.toList))
    | .ended => (r, .ok ())
    | .failed fault => (r, .error fault)

end Reader

/-! ## The client -/

abbrev Client := Reader Link

namespace Client

def new : Client := .start (.new Link.defaultCapacity)

def peerGone (c : Client) : Bool := c.stream.outbound.closed

/-- Send octets, as many as fit. -/
def sendRaw (c : Client) (octets : Bytes) : Client × Except Fault Unit :=
  if octets.isEmpty then (c, .ok ())
  else
    match c.stream.inbound.write octets with
    | (_, .broken) => (c, .error .brokenPipe)
    | (_, .full) => (c, .error (.ofKind .timedOut))
    | (pipe, .accepted n) =>
      ({ c with stream := { c.stream with inbound := pipe } },
        if octets.length ≤ n then .ok () else .error (.ofKind .timedOut))

def send (c : Client) (opcode : Opcode) (payload : Bytes) : Client × Except Fault Unit :=
  c.sendRaw (encodeFrame (0x80 ||| opcode.bits) payload (some clientMask))

def sendText (c : Client) (text : String) : Client × Except Fault Unit :=
  c.send .text (Bytes.ofString text)

def sendBinary (c : Client) (octets : Bytes) : Client × Except Fault Unit := c.send .binary octets

def sendClose (c : Client) (code : Nat) (reason : String) : Client × Except Fault Unit :=
  c.send .close (BigEndian.encode 2 code ++ Bytes.ofString reason)

def readFrame (c : Client) : Except Panic (Client × Except Fault (Option ReceivedFrame)) :=
  Reader.readFrame .link c

def expectClosed (c : Client) : Client × Except Fault Unit := Reader.expectClosed .link c

/-! ## Opening a session -/

/-- Whether one text stands somewhere in another. -/
def occursIn (part : List Char) : List Char → Bool
  | [] => part.isEmpty
  | c :: rest => part.isPrefixOf (c :: rest) || occursIn part rest

/-- The checks of a reply to a request with a key: it accepts, and proves to have read the key. -/
def checkReply (key reply : String) : Except Fault Unit :=
  let proof := "Sec-WebSocket-Accept: " ++ Opening.acceptKey key ++ "\r\n"
  if ! "HTTP/1.1 101 ".toList.isPrefixOf reply.toList then
    .error ⟨.other, some ("upgrade refused: " ++ reply)⟩
  else if ! occursIn proof.toList reply.toList then
    .error ⟨.other, some ("bad accept key: " ++ reply)⟩
  else .ok ()

/-- Send a request, and read the head of the reply as text.  `answering` is what the peer does
meanwhile: a request that does not fit is cut off if the peer lets go of the stream. -/
def handshake (request : Bytes) (answering : Client → Client) :
    Client × Except Fault String :=
  let (c, sent) := Client.new.sendRaw request
  match sent with
  | .error fault =>
    let c := answering c
    (c, .error (if c.peerGone then .brokenPipe else fault))
  | .ok () =>
    Reader.readReply .link (answering c)

/-- Open a session with the client's own request. -/
def connect (answering : Client → Client) : Client × Except Fault Unit :=
  let (c, reply) :=
    handshake (Bytes.ofString (upgradeRequest (some clientKey) "")) answering
  (c, reply.bind (checkReply clientKey))

/-! ## The peer -/

/-- The peer sends octets, whatever room there is. -/
def peerSend (c : Client) (octets : Bytes) : Client :=
  let pipe := c.stream.outbound
  { c with
    stream := { c.stream with outbound := { pipe with content := pipe.content.append octets } } }

/-- The peer writes once, as much as fits. -/
def peerWrite (c : Client) (octets : Bytes) : Client × Pipe.Written :=
  let (pipe, written) := c.stream.outbound.write octets
  ({ c with stream := { c.stream with outbound := pipe } }, written)

/-- The peer takes what the client sent, or `most` octets of it. -/
def peerRead (c : Client) (most : Option Nat) : Client × Bytes :=
  let (pipe, data, _) := c.stream.inbound.readAvailable most
  ({ c with stream := { c.stream with inbound := pipe } }, data)

def peerClose (c : Client) : Client := { c with stream := c.stream.release }

end Client

end WebSocket.Peer
