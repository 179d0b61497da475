import WebSocket.Wire.Bytes

/-!
# SHA-1

The digest has 20 octets.  A message is padded to whole blocks of 64
octets; each block is spread to eighty words, and eighty rounds mix them into five words of state.
-/

namespace WebSocket.Sha1

/-- The five words that a block changes. -/
structure State where
  a : UInt32
  b : UInt32
  c : UInt32
  d : UInt32
  e : UInt32
  deriving DecidableEq, Repr

def State.initial : State := ⟨0x67452301, 0xEFCDAB89, 0x98BADCFE, 0x10325476, 0xC3D2E1F0⟩

/-- The words of two states, added in pairs. -/
def State.add (s t : State) : State := ⟨s.a + t.a, s.b + t.b, s.c + t.c, s.d + t.d, s.e + t.e⟩

/-- The bits of a word turned to the left by `n` places, `0 < n < 32`. -/
def rotate (n : UInt32) (word : UInt32) : UInt32 := (word <<< n) ||| (word >>> (32 - n))

/-- The message with a set bit, zeros up to eight octets before the end of a block, and the number
of its bits. -/
def pad (message : Bytes) : Bytes :=
  let length := message.length
  message ++ 0x80 :: List.replicate ((119 - length % 64) % 64) 0
    ++ BigEndian.encode 8 (8 * length)

/-- The words that octets make four by four. -/
def words : Bytes → List UInt32
  | a :: b :: c :: d :: rest => UInt32.ofNat (BigEndian.decode [a, b, c, d]) :: words rest
  | _ => []

/-- Add `n` words to a schedule that is held with its newest word first. -/
def extend : Nat → List UInt32 → List UInt32
  | 0, newest => newest
  | n + 1, newest =>
    let word := rotate 1 (newest.getD 2 0 ^^^ newest.getD 7 0 ^^^ newest.getD 13 0
      ^^^ newest.getD 15 0)
    extend n (word :: newest)

def schedule (block : Bytes) : List UInt32 := (extend 64 (words block).reverse).reverse

/-- The function of three words and the constant of round `t`. -/
def mixer (t : Nat) (b c d : UInt32) : UInt32 × UInt32 :=
  if t < 20 then ((b &&& c) ||| (~~~b &&& d), 0x5A827999)
  else if t < 40 then (b ^^^ c ^^^ d, 0x6ED9EBA1)
  else if t < 60 then ((b &&& c) ||| (b &&& d) ||| (c &&& d), 0x8F1BBCDC)
  else (b ^^^ c ^^^ d, 0xCA62C1D6)

/-- Round `t`, which takes in one word of the schedule. -/
def round (s : State) (t : Nat) (word : UInt32) : State :=
  let (f, k) := mixer t s.b s.c s.d
  ⟨rotate 5 s.a + f + s.e + k + word, s.a, rotate 30 s.b, s.c, s.d⟩

def compress (s : State) (block : Bytes) : State :=
  s.add ((schedule block).zipIdx.foldl (fun s (word, t) => round s t word) s)

def absorb : Nat → State → Bytes → State
  | 0, s, _ => s
  | n + 1, s, octets => absorb n (compress s (octets.take 64)) (octets.drop 64)

def digest (message : Bytes) : Bytes :=
  let padded := pad message
  let s := absorb (padded.length / 64) .initial padded
  [s.a, s.b, s.c, s.d, s.e].flatMap fun word => BigEndian.encode 4 word.toNat

/-! ## Lemmas -/

@[simp] theorem length_digest (message : Bytes) : (digest message).length = 20 := by
  simp [digest]

end WebSocket.Sha1
