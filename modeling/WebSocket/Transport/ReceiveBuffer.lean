import WebSocket.Fifo
import WebSocket.Wire.Bytes

/-!
# Receive buffers

A receive buffer holds octets that have come and are not used up yet.  They stand in a block of
memory: first the place of those that are used up, then the octets, then the room for more.  A read
takes at most as many octets as there is room for, so how a stream is cut into reads depends on what
the buffer has been through.

`reserve` makes room for `n` octets.  Nothing happens if there is room.  Otherwise the octets move
to the front of their block, if that makes room enough and they do not overlap their old place, or
to a block at least twice as large.  A payload that is taken out stays in its block for as long as
it is under way.  Such a block is lent: it stays as it is, and the buffer goes on with a fresh one
for the octets that are not used up.

Whatever happens, there is the room that was asked for, and the octets are the same:

    n ≤ (b.reserve n lent).room                                       (le_room_reserve)
    (b.reserve n lent).toList = b.toList                              (toList_reserve)
-/

namespace WebSocket

/-- Octets that have come and are not used up yet. -/
structure ReceiveBuffer where
  content : Fifo UInt8
  /-- How many octets the block holds. -/
  block : Nat
  /-- How many octets at the front of the block are used up. -/
  used : Nat
  /-- How many blocks were left behind because they were lent. -/
  serial : Nat
  /-- How large a block is at least that takes the place of one that is lent. -/
  least : Nat
  /-- Room that is to be made before the next read. -/
  demand : Nat
  deriving DecidableEq, Repr

namespace ReceiveBuffer

/-- The least size of the blocks after a first block of a given size: the power of two below it,
but nothing below 1024 and 65536 at most. -/
def leastAfter (first : Nat) : Nat := if first < 1024 then 0 else min 65536 (1 <<< first.log2)

/-- A buffer without octets whose block holds `size` of them. -/
def ofSize (size : Nat) : ReceiveBuffer := ⟨.empty, size, 0, 0, leastAfter size, 0⟩

/-- A buffer that the octets fill. -/
def ofOctets (octets : Bytes) : ReceiveBuffer :=
  let content := Fifo.ofList octets
  ⟨content, content.size, 0, 0, leastAfter content.size, 0⟩

/-- A buffer without octets and without a block. -/
def empty : ReceiveBuffer := ofSize 0

def toList (b : ReceiveBuffer) : Bytes := b.content.toList

def size (b : ReceiveBuffer) : Nat := b.content.size

def isEmpty (b : ReceiveBuffer) : Bool := b.content.isEmpty

/-- How many octets may join. -/
def room (b : ReceiveBuffer) : Nat := b.block - (b.used + b.size)

def append (b : ReceiveBuffer) (octets : Bytes) : ReceiveBuffer :=
  { b with content := b.content.append octets }

/-- Use up all octets but the last ones, which are given. -/
def keep (b : ReceiveBuffer) (rest : Bytes) : ReceiveBuffer :=
  let content := Fifo.ofList rest
  { b with content := content, used := b.used + (b.size - content.size) }

/-- Use up the first `n` octets, and give them. -/
def split (b : ReceiveBuffer) (n : Nat) : Bytes × ReceiveBuffer :=
  let (octets, content) := b.content.split n
  (octets, { b with content := content, used := b.used + (b.size - content.size) })

/-- What is left behind when the octets are taken away together with their block. -/
def away (b : ReceiveBuffer) : ReceiveBuffer := { empty with serial := b.serial }

/-- Make room for `n` octets; `lent` tells of the block with a certain serial number whether it is
lent. -/
def reserve (b : ReceiveBuffer) (n : Nat) (lent : Nat → Bool) : ReceiveBuffer :=
  if n ≤ b.room then b
  else if lent b.serial then
    { b with block := max (b.size + n) b.least, used := 0, serial := b.serial + 1 }
  else if b.size + n ≤ b.block ∧ b.size ≤ b.used then { b with used := 0 }
  else { b with block := max (2 * b.block) (b.used + b.size + n) }

/-- Ask for room before the next read. -/
def ask (b : ReceiveBuffer) (n : Nat) : ReceiveBuffer := { b with demand := n }

/-- Make the room that was asked for, and then room for `n` octets. -/
def prepare (b : ReceiveBuffer) (n : Nat) (lent : Nat → Bool) : ReceiveBuffer :=
  { (b.reserve b.demand lent).reserve n lent with demand := 0 }

/-- How much room is made in a buffer that is full, when nobody asks for a certain amount. -/
def roomWhenFull : Nat := 64

def refill (b : ReceiveBuffer) : ReceiveBuffer :=
  if b.room = 0 then b.reserve roomWhenFull fun _ => false else b

/-! ## Lemmas -/

theorem size_eq_length (b : ReceiveBuffer) : b.size = b.toList.length := b.content.size_eq_length

@[simp] theorem toList_ofSize (size : Nat) : (ofSize size).toList = [] := by simp [toList, ofSize]

@[simp] theorem toList_ofOctets (octets : Bytes) : (ofOctets octets).toList = octets := by
  simp [toList, ofOctets]

@[simp] theorem toList_append (b : ReceiveBuffer) (octets : Bytes) :
    (b.append octets).toList = b.toList ++ octets := by simp [toList, append]

@[simp] theorem toList_keep (b : ReceiveBuffer) (rest : Bytes) : (b.keep rest).toList = rest := by
  simp [toList, keep]

@[simp] theorem toList_split_snd (b : ReceiveBuffer) (n : Nat) :
    (b.split n).2.toList = b.toList.drop n := by simp [toList, split]

@[simp] theorem split_fst (b : ReceiveBuffer) (n : Nat) : (b.split n).1 = b.toList.take n := by
  simp [toList, split]

theorem content_reserve (b : ReceiveBuffer) (n : Nat) (lent : Nat → Bool) :
    (b.reserve n lent).content = b.content := by
  unfold reserve
  repeat' split
  all_goals rfl

@[simp] theorem toList_reserve (b : ReceiveBuffer) (n : Nat) (lent : Nat → Bool) :
    (b.reserve n lent).toList = b.toList := by rw [toList, content_reserve, toList]

@[simp] theorem toList_prepare (b : ReceiveBuffer) (n : Nat) (lent : Nat → Bool) :
    (b.prepare n lent).toList = b.toList := by
  simp only [prepare, toList, content_reserve]

@[simp] theorem toList_refill (b : ReceiveBuffer) : b.refill.toList = b.toList := by
  unfold refill
  split
  · exact toList_reserve ..
  · rfl

/-- There is the room that was asked for. -/
theorem le_room_reserve (b : ReceiveBuffer) (n : Nat) (lent : Nat → Bool) :
    n ≤ (b.reserve n lent).room := by
  unfold reserve
  split
  · assumption
  · split
    · simp only [room, size]
      omega
    · split <;> simp only [room, size] at * <;> omega

/-- A buffer that was filled up has room. -/
theorem room_refill_pos (b : ReceiveBuffer) : 0 < b.refill.room := by
  unfold refill
  split
  · exact Nat.lt_of_lt_of_le (by decide : 0 < roomWhenFull) (le_room_reserve ..)
  · omega

end ReceiveBuffer

end WebSocket
