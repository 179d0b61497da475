import WebSocket.Transport.Fault
import WebSocket.Wire.Bytes

/-!
# Errors of the opening handshake

Why a client was not let in, and what it is told: a client that asks for another version of the
protocol learns which one is spoken, every other one only that its request is bad.
-/

namespace WebSocket

/-- The one version of the protocol that is spoken. -/
def supportedVersion : String := "13"

/-- Why the opening handshake failed. -/
inductive OpeningError where
  /-- The first line is not a method, a target and a version. -/
  | invalidRequestLine (line : String)
  /-- Only `GET` opens a session. -/
  | unsupportedMethod (method : String)
  /-- Only HTTP/1.1 can be left for another protocol. -/
  | unsupportedHttpVersion (version : String)
  /-- A header that must be there is not. -/
  | missingHeader (name : String)
  /-- A header is malformed or has a value that does not do. -/
  | invalidHeader (text : String)
  /-- The key is not the Base64 encoding of sixteen octets. -/
  | invalidKey
  /-- The client speaks another version of the protocol. -/
  | unsupportedVersion (version : String)
  /-- There is no blank line within the first `limit` octets. -/
  | requestTooLarge (limit : Nat)
  /-- The client took too long. -/
  | timedOut
  /-- The stream failed. -/
  | stream (fault : Fault)
  deriving DecidableEq, Repr

namespace OpeningError

def message : OpeningError → String
  | invalidRequestLine line => "invalid request line: " ++ Text.quote line
  | unsupportedMethod method => "unsupported method: " ++ method
  | unsupportedHttpVersion version => "unsupported HTTP version: " ++ version
  | missingHeader name => "missing header: " ++ name
  | invalidHeader text => "invalid header: " ++ text
  | invalidKey => "invalid Sec-WebSocket-Key"
  | unsupportedVersion version => "unsupported WebSocket version: " ++ version
  | requestTooLarge limit => "request exceeds " ++ toString limit ++ " bytes"
  | timedOut => "handshake timed out"
  | stream fault => "I/O error: " ++ fault.message

def status : OpeningError → Nat
  | unsupportedVersion _ => 426
  | _ => 400

def reply : OpeningError → String
  | unsupportedVersion _ =>
    "HTTP/1.1 426 Upgrade Required\r\nSec-WebSocket-Version: " ++ supportedVersion
      ++ "\r\nConnection: close\r\nContent-Length: 0\r\n\r\n"
  | _ => "HTTP/1.1 400 Bad Request\r\nConnection: close\r\nContent-Length: 0\r\n\r\n"

end OpeningError

end WebSocket
