import WebSocket.Opening.Negotiation
import WebSocket.Opening.RequestReader
import WebSocket.Transport.Medium
import WebSocket.Transport.ReceiveBuffer

/-!
# An attempt to open a session

After a client has connected, its request is read, the reply is written, and the session opens if
the request was accepted and the whole reply went out.  `Phase.step` is one step of an attempt on
a stream of any kind; between steps others may run.

A read takes what the receive buffer has room for, which settles how much of the octets after the
request comes with it.  The buffer goes over to the session with what is left in it.
-/

namespace WebSocket.Opening

/-- How far an attempt has come. -/
inductive Phase where
  /-- The request is being read; no blank line begins before the octet at `searched`. -/
  | reading (received : ReceiveBuffer) (searched : Nat)
  /-- The request is too long.  The refusal is written as far as the stream takes it. -/
  | refusing (unsent : Bytes) (error : OpeningError)
  /-- The reply is being written; after it the attempt ends with this outcome, which is the buffer
  with the octets after the request if the session opens. -/
  | replying (unsent : Bytes) (outcome : Except OpeningError ReceiveBuffer)

inductive Progress where
  /-- The attempt goes on at once. -/
  | moved (phase : Phase)
  /-- The attempt has to wait for octets or for room. -/
  | waiting
  /-- The attempt is over. -/
  | ended (outcome : Except OpeningError ReceiveBuffer)

/-- The size of the block that a request is gathered in at first. -/
def firstBlock : Nat := 1024

def Phase.start : Phase := .reading (.ofSize firstBlock) 0

/-- Whether the client's octets are awaited. -/
def Phase.isReading : Phase → Bool
  | .reading .. => true
  | _ => false

/-- Go on with writing some octets: `next` is the phase with what is then unsent, and `broken` the
outcome when the stream fails.  A stream that takes none of them has failed. -/
def continueWriting {σ : Type} (medium : Medium σ) (stream : σ) (unsent : Bytes)
    (next : Bytes → Phase) (broken : Fault → Except OpeningError ReceiveBuffer) : σ × Progress :=
  match medium.write stream unsent with
  | (stream, .done 0) => (stream, .ended (broken .writeZero))
  | (stream, .done n) => (stream, .moved (next (unsent.drop n)))
  | (stream, .failed fault) => (stream, .ended (broken fault))
  | (stream, .pending) => (stream, .waiting)

/-- One step of an attempt whose request may take up to `limit` octets. -/
def Phase.step {σ : Type} (medium : Medium σ) (limit : Nat) (phase : Phase) (stream : σ) :
    σ × Progress :=
  match phase with
  | .reading received searched =>
    match inspect limit searched received.toList with
    | .complete request =>
      let negotiation := negotiate request.head
      (stream, .moved (.replying negotiation.reply
        (negotiation.outcome.map fun _ => (received.split request.head.length).2)))
    | .tooLarge =>
      let error := .requestTooLarge limit
      (stream, .moved (.refusing (Bytes.ofString error.reply) error))
    | .incomplete =>
      let received := received.refill
      match medium.read stream received.room with
      | (stream, .done []) => (stream, .ended (.error (.stream .unexpectedEof)))
      | (stream, .done data) =>
        (stream, .moved (.reading (received.append data) (searchedIn received.toList)))
      | (stream, .failed fault) => (stream, .ended (.error (.stream fault)))
      | (stream, .pending) => (stream, .waiting)
  | .refusing unsent error =>
    if unsent.isEmpty then (stream, .ended (.error error))
    else continueWriting medium stream unsent (.refusing · error) fun _ => .error error
  | .replying unsent outcome =>
    if unsent.isEmpty then
      match medium.flush stream with
      | (stream, .done ()) => (stream, .ended outcome)
      | (stream, .failed fault) => (stream, .ended (.error (.stream fault)))
      | (stream, .pending) => (stream, .waiting)
    else continueWriting medium stream unsent (.replying · outcome) fun fault => .error (.stream fault)

end WebSocket.Opening
