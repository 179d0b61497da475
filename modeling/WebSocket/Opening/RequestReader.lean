import WebSocket.Opening.OpeningError

/-!
# Reading a request from a stream

The head of a request ends with the first blank line, the octets CR LF CR LF.  It has to fit into
a limit; what comes after it belongs to the first frame.  `inspect` says how the octets received
so far stand, and `readRequest` takes piece after piece until that is settled.  What was searched
once is not searched again, but for the last octets, with which a blank line may have begun.
-/

namespace WebSocket.Opening

/-- The longest request that is accepted unless a server says otherwise, with its blank line. -/
def maxRequest : Nat := 8 * 1024

/-- The position after the first blank line in octets of which the first stands at `position`. -/
def blankLineFrom? (position : Nat) : Bytes → Option Nat
  | [] => none
  | 13 :: 10 :: 13 :: 10 :: _ => some (position + 4)
  | _ :: rest => blankLineFrom? (position + 1) rest

/-- The position after the first blank line. -/
def blankLine? (octets : Bytes) : Option Nat := blankLineFrom? 0 octets

/-- A request's head and the octets that came with it. -/
structure SplitRequest where
  head : Bytes
  leftover : Bytes
  deriving DecidableEq, Repr

/-- How the octets received so far stand. -/
inductive Verdict where
  | complete (request : SplitRequest)
  | tooLarge
  | incomplete
  deriving DecidableEq, Repr

/-- Look for the end of the head among the octets received so far.  No blank line begins before the
octet at `searched`. -/
def inspect (limit searched : Nat) (received : Bytes) : Verdict :=
  match blankLineFrom? searched (received.drop searched) with
  | some position =>
    if limit < position then .tooLarge
    else .complete ⟨received.take position, received.drop position⟩
  | none => if limit ≤ received.length then .tooLarge else .incomplete

/-- Where the search goes on when more octets have come.  A blank line may have come in part. -/
def searchedIn (received : Bytes) : Nat := received.length - 3

/-- A request read from a source, and the pieces that the source still holds. -/
structure ReadRequest where
  request : SplitRequest
  unread : List Bytes
  deriving DecidableEq, Repr

/-- Take pieces from a source that fails with `fault` after the last one, until the head is whole
or cannot become so.  No blank line begins before the octet at `searched`. -/
def readFrom (limit : Nat) (fault : Fault) (searched : Nat) (received : Bytes)
    (source : List Bytes) : Except OpeningError ReadRequest :=
  match inspect limit searched received with
  | .complete request => .ok ⟨request, source⟩
  | .tooLarge => .error (.requestTooLarge limit)
  | .incomplete =>
    match source with
    | [] => .error (.stream fault)
    | piece :: source =>
      readFrom limit fault (searchedIn received) (received ++ piece) source

/-- Read a request of which some octets have been received already. -/
def readRequest (limit : Nat) (fault : Fault) (received : Bytes) (source : List Bytes) :
    Except OpeningError ReadRequest :=
  readFrom limit fault 0 received source

end WebSocket.Opening
