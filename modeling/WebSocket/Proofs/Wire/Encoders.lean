import WebSocket.Proofs.Wire.RoundTrip

/-!
# Two encoders

A server and a client write their frames with code of their own, and each chooses among the three
forms of a length by itself.  They write the same octets: the choice comes out alike for every
length, and a client's frame without a key is the frame of a server.

    frame.header = (0x80 ||| frame.opcode.bits) :: headerTail frame.payload.length   (header_eq)
    encodeFrame first payload (some key) =
      maskFrame key (plainHeaderLength payload.length) (encodeFrame first payload none)
                                                                         (encodeFrame_some)
-/

namespace WebSocket

/-! ## Headers without a key -/

def headerTail (length : Nat) : Bytes :=
  (LengthForm.shortest length).marker length :: (LengthForm.shortest length).extension length

def plainHeaderLength (length : Nat) : Nat :=
  if length ≤ 125 then 2 else if length ≤ 65535 then 4 else 10

theorem length_headerTail (length : Nat) :
    (headerTail length).length + 1 = plainHeaderLength length := by
  unfold headerTail plainHeaderLength LengthForm.shortest
  rw [List.length_cons, LengthForm.length_extension]
  by_cases hinline : length ≤ 125
  · simp only [if_pos hinline]
  · by_cases hmedium : length ≤ 65535
    · simp only [if_neg hinline, if_pos hmedium]
    · simp only [if_neg hinline, if_neg hmedium]

/-- A server chooses among the forms of a length as a client does. -/
theorem ServerFrame.header_eq (frame : ServerFrame) :
    frame.header = (0x80 ||| frame.opcode.bits) :: headerTail frame.payload.length := by
  have hspan : BigEndian.span 2 = 65535 + 1 := rfl
  unfold ServerFrame.header headerTail LengthForm.shortest maxControlPayload
  by_cases hinline : frame.payload.length ≤ 125
  · simp only [if_pos hinline]
    rfl
  · simp only [if_neg hinline, hspan, Nat.lt_succ_iff]
    by_cases hmedium : frame.payload.length ≤ 65535
    · simp only [if_pos hmedium]
      rfl
    · simp only [if_neg hmedium]
      rfl

/-- The bit that announces a key is no part of a length. -/
theorem LengthForm.top_marker_shortest (length : Nat) :
    (shortest length).marker length &&& 0x80 = 0 := by
  unfold shortest
  split
  · rename_i hinline
    have hall : ∀ n, n ≤ 125 → UInt8.ofNat n &&& 0x80 = 0 := by decide +kernel
    exact hall length hinline
  · split
    · show (126 : UInt8) &&& 0x80 = 0
      decide
    · show (127 : UInt8) &&& 0x80 = 0
      decide

/-! ## A key -/

/-- A frame without a key, put under one: the top bit of the second octet is set, the key stands
after the header, and octet `i` of what follows is combined with octet `i % 4` of the key. -/
def maskFrame (key : MaskKey) (headerLength : Nat) (frame : Bytes) : Bytes :=
  (frame.take headerLength).modify 1 (0x80 ||| ·) ++ key.toBytes ++
    (frame.drop headerLength).mapIdx fun i octet => octet ^^^ key.octet i

variable (first : UInt8) (payload : Bytes)

theorem encodeFrame_none :
    encodeFrame first payload none = (first :: headerTail payload.length) ++ payload := rfl

theorem take_encodeFrame_none :
    (encodeFrame first payload none).take (plainHeaderLength payload.length) =
      first :: headerTail payload.length := by
  rw [encodeFrame_none]
  exact List.take_left' (length_headerTail payload.length)

theorem drop_encodeFrame_none :
    (encodeFrame first payload none).drop (plainHeaderLength payload.length) = payload := by
  rw [encodeFrame_none]
  exact List.drop_left' (length_headerTail payload.length)

theorem encodeFrame_some (key : MaskKey) :
    encodeFrame first payload (some key) =
      maskFrame key (plainHeaderLength payload.length) (encodeFrame first payload none) := by
  rw [maskFrame, take_encodeFrame_none, drop_encodeFrame_none, ← MaskKey.apply_eq_mapIdx]
  rfl

/-! ## Agreement -/

/-- A server and a client write frames alike. -/
structure EncodersAgree : Prop where
  /-- What a client writes without a key is the frame of a server. -/
  server : ∀ opcode payload, encodeFrame (0x80 ||| opcode.bits) payload none =
    (ServerFrame.mk opcode payload).header ++ payload
  /-- Without a key the mask bit is clear, and the payload comes after a header of two, four or ten
  octets. -/
  plain : ∀ first payload, ∃ second extension,
    encodeFrame first payload none = first :: second :: (extension ++ payload) ∧
      second &&& 0x80 = 0 ∧ extension.length + 2 = plainHeaderLength payload.length
  /-- A key sets the mask bit, stands between header and payload and covers the payload. -/
  masked : ∀ first payload key, encodeFrame first payload (some key) =
    maskFrame key (plainHeaderLength payload.length) (encodeFrame first payload none)

theorem encoders_agree : EncodersAgree where
  server opcode payload := by
    rw [encodeFrame_none, ServerFrame.header_eq]
  plain first payload := by
    refine ⟨_, _, rfl, LengthForm.top_marker_shortest payload.length, ?_⟩
    exact length_headerTail payload.length
  masked := encodeFrame_some

/-- The shortest payload whose length takes two octets of its own. -/
example : (encodeFrame 0x82 (List.replicate 126 0) (some ⟨1, 2, 3, 4⟩)).take 12 =
    [0x82, 0xFE, 0, 126, 1, 2, 3, 4, 1, 2, 3, 4] := by
  decide +kernel

end WebSocket
