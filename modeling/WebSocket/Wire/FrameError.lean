import WebSocket.Text.Utf8
import WebSocket.Transport.Fault
import WebSocket.Wire.Opcode
import WebSocket.Wire.ServerFrame

/-!
# Errors in what a client sends

The rules that a client's frame can break, each with what a report of it needs, and the faults of
the stream that carries the frames.
-/

namespace WebSocket

/-- What is wrong with a client's frames. -/
inductive FrameError where
  /-- Bits of the first octet that have no meaning are set. -/
  | reservedBits (bits : UInt8)
  /-- The opcode is of no use to the server. -/
  | unsupportedOpcode (opcode : Opcode)
  /-- The message goes on in another frame. -/
  | fragmented
  /-- The payload is not masked. -/
  | unmasked
  /-- The payload is longer than the server accepts. -/
  | oversizedPayload (size limit : Nat)
  /-- The payload is longer than a control frame may carry. -/
  | oversizedControl (size : Nat)
  /-- The top bit of a length of eight octets is set. -/
  | invalidLength
  /-- A text message is not UTF-8. -/
  | invalidUtf8 (fault : Utf8Fault)
  /-- The stream failed. -/
  | stream (fault : Fault)
  deriving DecidableEq, Repr

namespace FrameError

/-- The error in words. -/
def message : FrameError → String
  | reservedBits bits => "reserved header bits set: 0x" ++ Text.hex2 bits.toNat
  | unsupportedOpcode opcode => "unsupported opcode: " ++ opcode.name
  | fragmented => "fragmented messages are not supported"
  | unmasked => "client frame is not masked"
  | oversizedPayload size limit =>
    "payload exceeds max length: " ++ toString size ++ " > " ++ toString limit
  | oversizedControl size =>
    "control frame payload too large: " ++ toString size ++ " > " ++ toString maxControlPayload
  | invalidLength => "invalid 64-bit payload length"
  | invalidUtf8 fault => "text frame is not valid UTF-8: " ++ fault.message
  | stream fault => "I/O error: " ++ fault.message

/-- Whether the client broke a rule, rather than the stream failing. -/
def isViolation : FrameError → Bool
  | stream _ => false
  | _ => true

/-- The class of the error in a report. -/
def category (error : FrameError) : String := if error.isViolation then "protocol" else "io"

end FrameError

end WebSocket
