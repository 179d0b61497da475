import WebSocket.Wire.Bytes
import WebSocket.Wire.Opcode

/-!
# Frames of the server

A frame that the server sends is final and unmasked: a header and the payload after it.  The
header has the shortest of three forms: two octets for a payload of up to 125 octets, four for up
to 65535, ten for more (`length_header`).
-/

namespace WebSocket

/-- The most octets a control frame may carry. -/
def maxControlPayload : Nat := 125

/-- The most octets the header of a client's frame can take: two fixed ones, eight of length and
the four of the key. -/
def maxHeaderLength : Nat := 14

/-- A frame from the server to a client. -/
structure ServerFrame where
  opcode : Opcode
  payload : Bytes
  deriving DecidableEq, Repr

namespace ServerFrame

/-- The octets before the payload. -/
def header (frame : ServerFrame) : Bytes :=
  let first := 0x80 ||| frame.opcode.bits
  let length := frame.payload.length
  if length ≤ maxControlPayload then
    [first, UInt8.ofNat length]
  else if length < BigEndian.span 2 then
    first :: 126 :: BigEndian.encode 2 length
  else
    first :: 127 :: BigEndian.encode 8 length

/-- The octets that the frame puts on a stream. -/
def wire (frame : ServerFrame) : Bytes := frame.header ++ frame.payload

/-- How many octets the frame puts on a stream. -/
def wireLength (frame : ServerFrame) : Nat := frame.header.length + frame.payload.length

/-- A frame that carries a text message. -/
def text (s : String) : ServerFrame := ⟨.text, Bytes.ofString s⟩

/-- A frame that carries a binary message. -/
def binary (payload : Bytes) : ServerFrame := ⟨.binary, payload⟩

/-- The answer to a Close frame: it repeats the status code, the first two octets of the peer's
payload, if there is one, and leaves the reason out. -/
def closeReply (peerPayload : Bytes) : ServerFrame :=
  ⟨.close, if 2 ≤ peerPayload.length then peerPayload.take 2 else []⟩

/-! ## Lemmas -/

theorem length_wire (frame : ServerFrame) : frame.wire.length = frame.wireLength := by
  simp [wire, wireLength]

theorem length_header (frame : ServerFrame) :
    frame.header.length =
      if frame.payload.length ≤ maxControlPayload then 2
      else if frame.payload.length < BigEndian.span 2 then 4 else 10 := by
  unfold header
  dsimp only
  split
  · rfl
  · split <;> simp

end ServerFrame

end WebSocket
