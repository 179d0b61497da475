import WebSocket.Digest.Base64
import WebSocket.Digest.Sha1
import WebSocket.Opening.Headers
import WebSocket.Opening.OpeningError

/-!
# Negotiating the opening of a session

`negotiate` reads a request up to its blank line and gives the reply with the outcome.  The checks
go from the first line to the headers, and the first that fails decides:

* the request is UTF-8, and its first line is `GET`, a target and `HTTP/1.1` with one space
  between them;
* every header line has a name and a colon;
* `Upgrade` lists `websocket` and `Connection` lists `upgrade`;
* `Sec-WebSocket-Key` is the Base64 encoding of sixteen octets;
* `Sec-WebSocket-Version`, if it is there, is `13`.
-/

namespace WebSocket.Opening

/-- What the server appends to a client's key before it takes the digest. -/
def keySuffix : String := "258EAFA5-E914-47DA-95CA-C5AB0DC85B11"

/-- The proof that the server has read a client's key: the digest of the key and the suffix. -/
def acceptKey (key : String) : String :=
  String.ofList (Base64.encode (Sha1.digest (Bytes.ofString key ++ Bytes.ofString keySuffix)))

def acceptance (key : String) : String :=
  "HTTP/1.1 101 Switching Protocols\r\nUpgrade: websocket\r\nConnection: Upgrade\r\n"
    ++ "Sec-WebSocket-Accept: " ++ acceptKey key ++ "\r\n\r\n"

/-- The reply to a request and the outcome. -/
structure Negotiation where
  reply : Bytes
  outcome : Except OpeningError Unit

def Negotiation.isAccepted (negotiation : Negotiation) : Bool := negotiation.outcome.isOk

def checkRequestLine (line : List Char) : Except OpeningError Unit :=
  match pieces ' ' line with
  | [method, target, version] =>
    if target.isEmpty then .error (.invalidRequestLine (String.ofList line))
    else if method ≠ "GET".toList then .error (.unsupportedMethod (String.ofList method))
    else if version ≠ "HTTP/1.1".toList then
      .error (.unsupportedHttpVersion (String.ofList version))
    else .ok ()
  | _ => .error (.invalidRequestLine (String.ofList line))

/-- Add header lines up to the first empty one to the headers read before. -/
def readHeaders (headers : Headers) : List (List Char) → Except OpeningError Headers
  | [] => .ok headers
  | [] :: _ => .ok headers
  | line :: later =>
    match headerLine? line with
    | none => .error (.invalidHeader (String.ofList line))
    | some (name, value) => readHeaders (headers.insert (lower name) value) later

/-- Check that the header with a given name is there and lists a token. -/
def checkListed (headers : Headers) (name token : String) : Except OpeningError Unit :=
  match headers.get? (String.ofList (lower name.toList)) with
  | none => .error (.missingHeader name)
  | some value =>
    if hasToken value token then .ok ()
    else .error (.invalidHeader (name ++ ": " ++ String.ofList value))

/-- The client's key, if it encodes sixteen octets. -/
def readKey (headers : Headers) : Except OpeningError String :=
  match headers.get? "sec-websocket-key" with
  | none => .error (.missingHeader "Sec-WebSocket-Key")
  | some key =>
    if (Base64.decode key).any (·.length == 16) then .ok (String.ofList key)
    else .error .invalidKey

/-- Check that the client speaks the supported version, or does not say which it speaks. -/
def checkVersion (headers : Headers) : Except OpeningError Unit :=
  match headers.get? "sec-websocket-version" with
  | none => .ok ()
  | some version =>
    if version = supportedVersion.toList then .ok ()
    else .error (.unsupportedVersion (String.ofList version))

/-- Check the lines of a request and give the client's key. -/
def checkLines (requestLine : List Char) (headerLines : List (List Char)) :
    Except OpeningError String := do
  checkRequestLine requestLine
  let headers ← readHeaders [] headerLines
  checkListed headers "Upgrade" "websocket"
  checkListed headers "Connection" "upgrade"
  let key ← readKey headers
  checkVersion headers
  return key

def checkRequest (request : Bytes) : Except OpeningError String :=
  match request.toString? with
  | none => .error (.invalidRequestLine "request is not UTF-8")
  | some text =>
    match lines text.toList with
    | [] => .error (.invalidRequestLine "")
    | requestLine :: headerLines => checkLines requestLine headerLines

/-- The reply to a request, and whether the session opens. -/
def negotiate (request : Bytes) : Negotiation :=
  match checkRequest request with
  | .ok key => ⟨Bytes.ofString (acceptance key), .ok ()⟩
  | .error error => ⟨Bytes.ofString error.reply, .error error⟩

end WebSocket.Opening
