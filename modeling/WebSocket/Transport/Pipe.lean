import WebSocket.Fifo
import WebSocket.Transport.Fault
import WebSocket.Wire.Bytes

/-!
# Pipes and links

A pipe carries octets one way and holds a bounded number of them.  A write puts in what fits, a
read takes what is there.  Once either end is gone the pipe is closed: what it holds can still be
read, and nothing can be written.

A link joins a client to the server with one pipe each way.
-/

namespace WebSocket

/-- A one-way channel for octets. -/
structure Pipe where
  capacity : Nat
  content : Fifo UInt8
  closed : Bool
  deriving DecidableEq, Repr

namespace Pipe

/-- What became of a write. -/
inductive Written where
  /-- The first `n` octets are in the pipe. -/
  | accepted (n : Nat)
  /-- There was no room. -/
  | full
  /-- The pipe is closed. -/
  | broken
  deriving DecidableEq, Repr

/-- What came of a read. -/
inductive Taken where
  /-- These octets, at least one. -/
  | octets (data : Bytes)
  /-- There will be no more. -/
  | ended
  /-- There is nothing at present. -/
  | nothing
  deriving DecidableEq, Repr

def new (capacity : Nat) : Pipe := ⟨capacity, .empty, false⟩

/-- Put in as many octets as fit.  A write of no octets needs no room. -/
def write (pipe : Pipe) (data : Bytes) : Pipe × Written :=
  if pipe.closed then (pipe, .broken)
  else if data.isEmpty then (pipe, .accepted 0)
  else
    let room := pipe.capacity - pipe.content.size
    if room = 0 then (pipe, .full)
    else
      let part := data.take room
      ({ pipe with content := pipe.content.append part }, .accepted part.length)

/-- Take up to `most` octets, for a positive `most`. -/
def read (pipe : Pipe) (most : Nat) : Pipe × Taken :=
  if pipe.content.isEmpty then (pipe, if pipe.closed then .ended else .nothing)
  else
    let (data, content) := pipe.content.split most
    ({ pipe with content := content }, .octets data)

/-- Take all there is, or the first `most` octets of it, and tell whether the end was seen.  A read
that has its fill does not look for the end. -/
def readAvailable (pipe : Pipe) (most : Option Nat) : Pipe × Bytes × Bool :=
  match most with
  | none => ({ pipe with content := .empty }, pipe.content.toList, pipe.closed)
  | some n =>
    let (data, content) := pipe.content.split n
    ({ pipe with content := content }, data, pipe.closed && decide (data.length < n))

/-- The pipe with one of its ends gone. -/
def close (pipe : Pipe) : Pipe := { pipe with closed := true }

/-! ## Lemmas -/

/-- What a read takes and what it leaves are what the pipe held. -/
theorem read_octets {pipe pipe' : Pipe} {most : Nat} {data : Bytes}
    (h : pipe.read most = (pipe', .octets data)) :
    data ++ pipe'.content.toList = pipe.content.toList := by
  unfold read at h
  split at h
  · simp only [Prod.mk.injEq] at h
    split at h <;> simp at h
  · simp only [Prod.mk.injEq, Taken.octets.injEq] at h
    obtain ⟨rfl, rfl⟩ := h
    simp

/-- A read that may take something and takes octets leaves fewer. -/
theorem size_lt_of_read {pipe pipe' : Pipe} {most : Nat} {data : Bytes} (positive : 0 < most)
    (h : pipe.read most = (pipe', .octets data)) :
    pipe'.content.size < pipe.content.size := by
  unfold read at h
  split at h
  · simp only [Prod.mk.injEq] at h
    split at h <;> simp at h
  · rename_i nonempty
    rw [Fifo.isEmpty_iff] at nonempty
    simp only [Prod.mk.injEq, Taken.octets.injEq] at h
    obtain ⟨rfl, rfl⟩ := h
    simp only [Fifo.size_eq_length, Fifo.toList_split_snd, List.length_drop]
    have := List.length_pos_iff.mpr nonempty
    omega

/-- A write adds to what the pipe held the first octets it was given, as many as it reports. -/
theorem write_accepted {pipe pipe' : Pipe} {data : Bytes} {n : Nat}
    (h : pipe.write data = (pipe', .accepted n)) :
    pipe'.content.toList = pipe.content.toList ++ data.take n ∧ n ≤ data.length := by
  unfold write at h
  split at h
  · simp at h
  · split at h
    · simp only [Prod.mk.injEq, Written.accepted.injEq] at h
      obtain ⟨rfl, rfl⟩ := h
      exact ⟨by simp, Nat.zero_le _⟩
    · dsimp only at h
      split at h
      · simp at h
      · simp only [Prod.mk.injEq, Written.accepted.injEq] at h
        obtain ⟨rfl, rfl⟩ := h
        exact ⟨by simp, List.length_take_le' ..⟩

end Pipe

/-- The number of a stream. -/
abbrev Transport := Nat

/-- A stream between a client and the server: what the client sends, what the server sends, and
whether the client still holds its end. -/
structure Link where
  inbound : Pipe
  outbound : Pipe
  attended : Bool
  deriving DecidableEq, Repr

namespace Link

/-- How many octets a pipe holds unless a test says otherwise. -/
def defaultCapacity : Nat := 65536

def new (capacity : Nat) : Link := ⟨.new capacity, .new capacity, true⟩

/-- The client lets go of its end. -/
def hangUp (link : Link) : Link :=
  { inbound := link.inbound.close, outbound := link.outbound.close, attended := false }

/-- The client says that it will send no more. -/
def shutDown (link : Link) : Link := { link with inbound := link.inbound.close }

/-- The server lets go of its end. -/
def release (link : Link) : Link :=
  { link with inbound := link.inbound.close, outbound := link.outbound.close }

end Link

end WebSocket
