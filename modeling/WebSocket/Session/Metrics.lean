/-!
# Metrics

A gauge of the open connections and counters of frames and errors.  A metric is listed from the
first sample that touches it, also when its value is zero again.
-/

namespace WebSocket

/-- Which way a frame went. -/
inductive Direction where
  | inbound
  | outbound
  deriving DecidableEq, Repr

def Direction.label : Direction → String
  | inbound => "inbound"
  | outbound => "outbound"

/-- The classes of error that are counted. -/
inductive ErrorKind where
  /-- A client was not let in. -/
  | handshake
  /-- A client broke the rules of frames. -/
  | protocol
  /-- A stream failed. -/
  | io
  /-- A stream could not be accepted. -/
  | accept
  /-- A callback of the application panicked. -/
  | panic
  deriving DecidableEq, Repr

def ErrorKind.label : ErrorKind → String
  | handshake => "handshake"
  | protocol => "protocol"
  | io => "io"
  | accept => "accept"
  | panic => "panic"

def ErrorKind.all : List ErrorKind := [handshake, protocol, io, accept, panic]

/-- Something that a metric records. -/
inductive Sample where
  | opened
  | closed
  | frame (direction : Direction)
  | error (kind : ErrorKind)
  deriving DecidableEq, Repr

namespace Metrics

def connectionsName : String := "wsengine_connections_active"

def framesName : String := "wsengine_frames_processed_total"

def errorsName : String := "wsengine_errors_total"

end Metrics

def Sample.metric : Sample → String
  | opened | closed => Metrics.connectionsName
  | frame direction => Metrics.framesName ++ "\x7bdirection=" ++ direction.label ++ "\x7d"
  | error kind => Metrics.errorsName ++ "\x7bkind=" ++ kind.label ++ "\x7d"

def Sample.amount : Sample → Int
  | closed => -1
  | _ => 1

/-- The metrics that have been touched, with their values. -/
abbrev Metrics := List (String × Int)

namespace Metrics

def add (name : String) (amount : Int) : Metrics → Metrics
  | [] => [(name, amount)]
  | (n, value) :: later =>
    if n = name then (n, value + amount) :: later else (n, value) :: add name amount later

def record (metrics : Metrics) (sample : Sample) : Metrics :=
  add sample.metric sample.amount metrics

/-- The value of a metric, zero if nothing has touched it. -/
def value (metrics : Metrics) (name : String) : Int := (metrics.lookup name).getD 0

/-! ## Lemmas -/

@[simp] theorem value_add_self (name : String) (amount : Int) (metrics : Metrics) :
    (add name amount metrics).value name = metrics.value name + amount := by
  induction metrics with
  | nil => simp [add, value]
  | cons entry later ih =>
    obtain ⟨n, v⟩ := entry
    unfold add
    split
    · rename_i h
      simp [value, h]
    · rename_i h
      have : (name == n) = false := by simp; exact fun e => h e.symm
      simpa [value, List.lookup_cons, this] using ih

theorem value_add_other {name other : String} (amount : Int) (metrics : Metrics)
    (h : other ≠ name) : (add name amount metrics).value other = metrics.value other := by
  have hne : (other == name) = false := by simpa using h
  induction metrics with
  | nil => simp [add, value, List.lookup_cons, hne]
  | cons entry later ih =>
    obtain ⟨n, v⟩ := entry
    unfold add
    split
    · rename_i e
      simp [value, List.lookup_cons, e, hne]
    · simp only [value, List.lookup_cons] at ih ⊢
      split <;> simp_all

end Metrics

end WebSocket
