import WebSocket.Wire.FrameError
import WebSocket.Wire.Masking

/-!
# Decoding a client's frames

A decoder waits either for a header or for the payload of a header it has taken.  `Decoder.decode`
takes at most one frame from the front of a buffer; a header is checked as soon as the octets that
decide are there, and taken once it is whole.  `Decoder.drain` decodes until nothing comes:

    decode d input = ⟨.ok (some f), d', rest⟩ →
      d'.awaiting = .header ∧ rest.length < input.length + d.awaiting.debt      (decode_frame)

so a drain ends.  On an error neither the buffer nor the decoder changes.
-/

namespace WebSocket

/-- A whole frame of a client, with its payload unmasked. -/
structure InboundFrame where
  opcode : Opcode
  payload : Bytes
  deriving DecidableEq, Repr

/-- What the header of a client's frame says. -/
structure FrameHeader where
  opcode : Opcode
  key : MaskKey
  length : Nat
  deriving DecidableEq, Repr

/-- What a decoder waits for. -/
inductive Awaiting where
  | header
  | payload (head : FrameHeader)
  deriving DecidableEq, Repr

/-- A decoder for the frames of one client, which accepts payloads of up to `limit` octets. -/
structure Decoder where
  limit : Nat
  awaiting : Awaiting
  deriving DecidableEq, Repr

/-- The longest payload that is accepted unless a server says otherwise: 16 MiB. -/
def maxPayload : Nat := 16 * 1024 * 1024

/-- A limit on payloads that leaves room for every control frame. -/
def clampPayloadLimit (limit : Nat) : Nat := max limit maxControlPayload

/-- The first `n` octets and the rest, if there are that many. -/
def takeExactly (n : Nat) (octets : Bytes) : Option (Bytes × Bytes) :=
  let (taken, rest) := octets.splitAt n
  if taken.length = n then some (taken, rest) else none

/-! ## Headers -/

/-- The rule that the first two octets of a header break, if they break one. -/
def fixedViolation? (first second : UInt8) : Option FrameError :=
  if first &&& 0x70 ≠ 0 then some (.reservedBits (first &&& 0x70))
  else if !(Opcode.ofBits first).isSupported then
    some (.unsupportedOpcode (Opcode.ofBits first))
  else if first &&& 0x80 = 0 then some .fragmented
  else if second &&& 0x80 = 0 then some .unmasked
  else none

/-- The declared length and the octets after it: the seven bits themselves, or the number in the
two or eight octets that follow, once they are there. -/
def declaredLength? (second : UInt8) (rest : Bytes) : Option (Nat × Bytes) :=
  let short := second &&& 0x7F
  if short = 126 then
    (takeExactly 2 rest).map fun (digits, rest) => (BigEndian.decode digits, rest)
  else if short = 127 then
    (takeExactly 8 rest).map fun (digits, rest) => (BigEndian.decode digits, rest)
  else
    some (short.toNat, rest)

/-- The rule that a declared length breaks, if it breaks one. -/
def lengthViolation? (limit : Nat) (opcode : Opcode) (length : Nat) : Option FrameError :=
  if 0x8000000000000000 ≤ length then some .invalidLength
  else if opcode.isControl && decide (maxControlPayload < length) then
    some (.oversizedControl length)
  else if limit < length then some (.oversizedPayload length limit)
  else none

/-- The header at the front of the input and the octets after it; nothing if more octets are
needed to tell. -/
def readHeader (limit : Nat) (input : Bytes) :
    Except FrameError (Option (FrameHeader × Bytes)) :=
  match input with
  | first :: second :: rest =>
    match fixedViolation? first second with
    | some error => .error error
    | none =>
      match declaredLength? second rest with
      | none => .ok none
      | some (length, rest) =>
        let opcode := Opcode.ofBits first
        match lengthViolation? limit opcode length with
        | some error => .error error
        | none =>
          match rest with
          | a :: b :: c :: d :: rest => .ok (some (⟨opcode, ⟨a, b, c, d⟩, length⟩, rest))
          | _ => .ok none
  | _ => .ok none

/-! ## Frames -/

/-- The result of one step of decoding: a frame, an error or neither, with the decoder and the
buffer after the step. -/
structure Decoded where
  result : Except FrameError (Option InboundFrame)
  decoder : Decoder
  rest : Bytes

namespace Decoder

/-- A decoder between frames, with at least the limit that control frames need. -/
def new (limit : Nat) : Decoder := ⟨clampPayloadLimit limit, .header⟩

/-- Take the payload of a header once all of it is there. -/
def decodePayload (decoder : Decoder) (head : FrameHeader) (input : Bytes) : Decoded :=
  match takeExactly head.length input with
  | none => ⟨.ok none, { decoder with awaiting := .payload head }, input⟩
  | some (body, rest) =>
    ⟨.ok (some ⟨head.opcode, head.key.apply body⟩), { decoder with awaiting := .header }, rest⟩

/-- Take one frame from the front of the input, if it is whole. -/
def decode (decoder : Decoder) (input : Bytes) : Decoded :=
  match decoder.awaiting with
  | .payload head => decoder.decodePayload head input
  | .header =>
    match readHeader decoder.limit input with
    | .error error => ⟨.error error, decoder, input⟩
    | .ok none => ⟨.ok none, decoder, input⟩
    | .ok (some (head, rest)) => decoder.decodePayload head rest

end Decoder

/-- What a step needs besides octets in order to give a frame: a header that is taken already
counts as one. -/
def Awaiting.debt : Awaiting → Nat
  | header => 0
  | payload _ => 1

/-! ## Lemmas -/

theorem takeExactly_eq (n : Nat) (octets : Bytes) :
    takeExactly n octets =
      if (octets.take n).length = n then some (octets.take n, octets.drop n) else none := by
  simp only [takeExactly, List.splitAt_eq]

theorem takeExactly_eq_some_iff {n : Nat} {octets a b : Bytes} :
    takeExactly n octets = some (a, b) ↔ octets = a ++ b ∧ a.length = n := by
  rw [takeExactly_eq]
  split
  · rename_i h
    constructor
    · intro e
      simp only [Option.some.injEq, Prod.mk.injEq] at e
      obtain ⟨rfl, rfl⟩ := e
      exact ⟨(List.take_append_drop n octets).symm, h⟩
    · rintro ⟨rfl, rfl⟩
      simp
  · rename_i h
    simp only [reduceCtorEq, false_iff, not_and]
    rintro rfl rfl
    simp at h

theorem takeExactly_eq_none_iff {n : Nat} {octets : Bytes} :
    takeExactly n octets = none ↔ octets.length < n := by
  rw [takeExactly_eq]
  split <;> rename_i h <;> simp only [List.length_take] at h <;> simp <;> omega

theorem length_declaredLength {second : UInt8} {rest rest' : Bytes} {length : Nat}
    (h : declaredLength? second rest = some (length, rest')) : rest'.length ≤ rest.length := by
  simp only [declaredLength?] at h
  split at h
  · rw [Option.map_eq_some_iff] at h
    obtain ⟨⟨digits, r⟩, h₁, h₂⟩ := h
    rw [takeExactly_eq_some_iff] at h₁
    simp only [Prod.mk.injEq] at h₂
    obtain ⟨-, rfl⟩ := h₂
    rw [h₁.1]
    simp
  · split at h
    · rw [Option.map_eq_some_iff] at h
      obtain ⟨⟨digits, r⟩, h₁, h₂⟩ := h
      rw [takeExactly_eq_some_iff] at h₁
      simp only [Prod.mk.injEq] at h₂
      obtain ⟨-, rfl⟩ := h₂
      rw [h₁.1]
      simp
    · simp only [Option.some.injEq, Prod.mk.injEq] at h
      obtain ⟨-, rfl⟩ := h
      exact Nat.le_refl _

/-- A header takes at least six octets. -/
theorem length_readHeader {limit : Nat} {input rest : Bytes} {head : FrameHeader}
    (h : readHeader limit input = .ok (some (head, rest))) :
    rest.length + 6 ≤ input.length := by
  unfold readHeader at h
  split at h
  · rename_i first second more
    split at h
    · simp at h
    · split at h
      · simp at h
      · rename_i length rest' hlength
        have := length_declaredLength hlength
        dsimp only at h
        split at h
        · simp at h
        · split at h
          · simp only [Except.ok.injEq, Option.some.injEq, Prod.mk.injEq] at h
            obtain ⟨-, rfl⟩ := h
            simp only [List.length_cons] at *
            omega
          · simp at h
  · simp at h

namespace Decoder

theorem decodePayload_frame {decoder : Decoder} {head : FrameHeader} {input : Bytes}
    {frame : InboundFrame} (h : (decoder.decodePayload head input).result = .ok (some frame)) :
    (decoder.decodePayload head input).decoder.awaiting = .header ∧
      (decoder.decodePayload head input).rest.length ≤ input.length := by
  unfold decodePayload at h ⊢
  split at h
  · simp at h
  · rename_i body rest hbody
    rw [takeExactly_eq_some_iff] at hbody
    exact ⟨rfl, by rw [hbody.1]; simp⟩

/-- A step that gives a frame leaves the decoder between frames and takes octets, or the header
that the decoder held. -/
theorem decode_frame {decoder : Decoder} {input : Bytes} {frame : InboundFrame}
    (h : (decoder.decode input).result = .ok (some frame)) :
    (decoder.decode input).decoder.awaiting = .header ∧
      (decoder.decode input).rest.length < input.length + decoder.awaiting.debt := by
  unfold decode at h ⊢
  split
  · rename_i head hawaiting
    simp only [hawaiting] at h
    have := decodePayload_frame h
    exact ⟨this.1, by simp only [hawaiting, Awaiting.debt]; omega⟩
  · rename_i hawaiting
    simp only [hawaiting] at h
    split
    · simp_all
    · simp_all
    · rename_i head rest hhead
      simp only [hhead] at h
      have taken := decodePayload_frame h
      have := length_readHeader hhead
      exact ⟨taken.1, by omega⟩

end Decoder

/-! ## Draining a buffer -/

/-- What decoding gives until nothing more comes: the frames, the error that ended it if there was
one, and the decoder and the buffer that are left. -/
structure Drained where
  frames : List InboundFrame
  error : Option FrameError
  decoder : Decoder
  rest : Bytes

namespace Decoder

/-- Decode until nothing comes. -/
def drain (decoder : Decoder) (input : Bytes) : Drained :=
  match _h : (decoder.decode input).result with
  | .error error => ⟨[], some error, (decoder.decode input).decoder, (decoder.decode input).rest⟩
  | .ok none => ⟨[], none, (decoder.decode input).decoder, (decoder.decode input).rest⟩
  | .ok (some frame) =>
    let later := drain (decoder.decode input).decoder (decoder.decode input).rest
    { later with frames := frame :: later.frames }
termination_by input.length + decoder.awaiting.debt
decreasing_by
  have := decode_frame _h
  rw [this.1]
  exact this.2

/-- The last step, at the end of the stream: octets that make no frame are an error. -/
def decodeEnd (decoder : Decoder) (input : Bytes) : Decoded :=
  let last := decoder.decode input
  match last.result with
  | .ok none =>
    if last.rest.isEmpty then last
    else { last with result := .error (.stream ⟨.other, some "bytes remaining on stream"⟩) }
  | _ => last

end Decoder

end WebSocket
