import WebSocket.Text.Quoted

/-!
# Faults of a stream

Why an operation on a stream failed: a kind, and a text if whoever raised the fault gave one.
-/

namespace WebSocket

inductive FaultKind where
  | connectionReset
  | connectionAborted
  | connectionRefused
  | unexpectedEof
  | brokenPipe
  | timedOut
  | permissionDenied
  | invalidData
  | writeZero
  | other
  deriving DecidableEq, Repr

namespace FaultKind

def name : FaultKind → String
  | connectionReset => "ConnectionReset"
  | connectionAborted => "ConnectionAborted"
  | connectionRefused => "ConnectionRefused"
  | unexpectedEof => "UnexpectedEof"
  | brokenPipe => "BrokenPipe"
  | timedOut => "TimedOut"
  | permissionDenied => "PermissionDenied"
  | invalidData => "InvalidData"
  | writeZero => "WriteZero"
  | other => "Other"

/-- The kind in words. -/
def description : FaultKind → String
  | connectionReset => "connection reset"
  | connectionAborted => "connection aborted"
  | connectionRefused => "connection refused"
  | unexpectedEof => "unexpected end of file"
  | brokenPipe => "broken pipe"
  | timedOut => "timed out"
  | permissionDenied => "permission denied"
  | invalidData => "invalid data"
  | writeZero => "write zero"
  | other => "other error"

def all : List FaultKind :=
  [connectionReset, connectionAborted, connectionRefused, unexpectedEof, brokenPipe, timedOut,
    permissionDenied, invalidData, writeZero, other]

def ofName? (s : String) : Option FaultKind := all.find? fun kind => kind.name == s

end FaultKind

/-- Why an operation on a stream failed. -/
structure Fault where
  kind : FaultKind
  text : Option String
  deriving DecidableEq, Repr

namespace Fault

/-- A fault of which only the kind is known. -/
def ofKind (kind : FaultKind) : Fault := ⟨kind, none⟩

/-- The fault in words: its own text, or else that of its kind. -/
def message (fault : Fault) : String := fault.text.getD fault.kind.description

/-- The fault with its kind and its text apart, as a diagnosis shows it. -/
def diagnosis (fault : Fault) : String :=
  match fault.text with
  | none => "Kind(" ++ fault.kind.name ++ ")"
  | some text =>
    "Custom \x7b kind: " ++ fault.kind.name ++ ", error: " ++ Text.quote text ++ " \x7d"

/-- The other end of the stream is gone. -/
def brokenPipe : Fault := ofKind .brokenPipe

/-- The operation was given up because its connection closed. -/
def aborted : Fault := ofKind .connectionAborted

/-- The stream ended before what was expected of it. -/
def unexpectedEof : Fault := ofKind .unexpectedEof

/-- The stream took nothing of what was put on it. -/
def writeZero : Fault := ofKind .writeZero

end Fault

end WebSocket
