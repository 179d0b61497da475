import WebSocket.Proofs.Wire.Framing
import WebSocket.Wire.ClientFrame

/-!
# Frames there and back

A client writes a frame and a decoder reads it, and neither knows of the other.  A decoder gives
back every frame that a client encodes, and goes on right behind it:

    frame.Fits limit → Begins limit (frame.encoded ++ rest) frame.received rest        (Fits.begins)
    (new limit).drain (encodings frames) = ⟨frames.map received, none, new limit, []⟩
                                                                              (drain_encodings)

The other way round, a client that encodes what a decoder gave writes the octets that the decoder
took just when the length stood there in its shortest form (`round_trips`).
-/

namespace WebSocket

/-- The octets of a masked frame whose length is written in a given form. -/
def spell (first : UInt8) (form : LengthForm) (key : MaskKey) (payload : Bytes) : Bytes :=
  first :: (0x80 ||| form.marker payload.length) ::
    (form.extension payload.length ++ key.toBytes ++ key.apply payload)

/-- A client writes every length in its shortest form. -/
theorem encodeFrame_eq_spell (first : UInt8) (payload : Bytes) (key : MaskKey) :
    encodeFrame first payload (some key) = spell first (.shortest payload.length) key payload :=
  rfl

namespace LengthForm

theorem length_extension (form : LengthForm) (length : Nat) :
    (form.extension length).length =
      match form with
      | inline => 0
      | medium => 2
      | long => 8 := by
  cases form with
  | inline => rfl
  | medium => exact BigEndian.length_encode 2 length
  | long => exact BigEndian.length_encode 8 length

/-- The three forms of a length take different numbers of octets. -/
theorem eq_of_length_extension {form other : LengthForm} (length : Nat)
    (h : (form.extension length).length = (other.extension length).length) : form = other := by
  rw [length_extension, length_extension] at h
  cases form <;> cases other <;> first | rfl | cases h

theorem holds_shortest {length : Nat} (h : length < 2 ^ 63) : (shortest length).Holds length := by
  unfold shortest
  split
  · assumption
  · split
    · show length < 2 ^ 16
      omega
    · show length < 2 ^ 64
      omega

end LengthForm

/-- What a frame is spelled like tells the form of its length. -/
theorem spell_inj_form {first : UInt8} {form other : LengthForm} {key : MaskKey} {payload : Bytes}
    (h : spell first form key payload = spell first other key payload) : form = other := by
  have hlength := congrArg List.length h
  simp only [spell, List.length_cons, List.length_append] at hlength
  exact LengthForm.eq_of_length_extension payload.length (by omega)

/-! ## Encoding and decoding -/

/-- A frame that a client sends, with the key under which its payload goes. -/
structure MaskedFrame where
  opcode : Opcode
  payload : Bytes
  key : MaskKey
  deriving DecidableEq, Repr

namespace MaskedFrame

def encoded (frame : MaskedFrame) : Bytes :=
  encodeFrame (0x80 ||| frame.opcode.bits) frame.payload (some frame.key)

def received (frame : MaskedFrame) : InboundFrame := ⟨frame.opcode, frame.payload⟩

/-- Whether a decoder with a given limit has to accept the frame.  A payload has fewer than `2 ^ 63`
octets, since no more have an address. -/
structure Fits (limit : Nat) (frame : MaskedFrame) : Prop where
  supported : frame.opcode ∈ Opcode.supported
  within : frame.payload.length ≤ max limit 125
  control : frame.opcode.isControl → frame.payload.length ≤ 125
  addressable : frame.payload.length < 2 ^ 63

def encodings (frames : List MaskedFrame) : Bytes := frames.flatMap (·.encoded)

variable {limit : Nat} {frame : MaskedFrame} {frames : List MaskedFrame}

/-- What a client encodes is what the grammar has for a frame. -/
theorem Fits.begins (h : frame.Fits limit) (rest : Bytes) :
    Begins limit (frame.encoded ++ rest) frame.received rest := by
  have hheads : Heads limit (frame.encoded ++ rest)
      ⟨frame.opcode, frame.key, (frame.key.apply frame.payload).length⟩
      (frame.key.apply frame.payload ++ rest) := by
    rw [MaskKey.length_apply]
    simp only [encoded, encodeFrame, List.cons_append, List.append_assoc]
    exact .header h.supported (LengthForm.holds_shortest h.addressable) h.addressable h.within
      h.control
  have hbegins := Begins.frame hheads
  rwa [← MaskKey.apply_eq_mapIdx, MaskKey.apply_apply] at hbegins

theorem tiles_encodings (h : ∀ frame ∈ frames, frame.Fits limit) :
    Tiles limit (encodings frames) (frames.map received) := by
  induction frames with
  | nil => exact .nil
  | cons frame frames ih =>
    obtain ⟨hframe, hframes⟩ := List.forall_mem_cons.mp h
    exact .cons (hframe.begins (encodings frames)) (ih hframes)

/-- A decoder between frames gives the frames of a client one after another. -/
theorem drain_encodings (h : ∀ frame ∈ frames, frame.Fits limit) :
    (Decoder.new limit).drain (encodings frames) =
      ⟨frames.map received, none, .new limit, []⟩ :=
  Decoder.drain_tiles (tiles_encodings h)

/-- Wherever the octets of some frames are cut, what comes before the cut gives the first of the
frames and no error. -/
theorem drain_of_isPrefix (h : ∀ frame ∈ frames, frame.Fits limit) {octets : Bytes}
    (hcut : octets <+: encodings frames) :
    ((Decoder.new limit).drain octets).error = none ∧
      ((Decoder.new limit).drain octets).frames <+: frames.map received := by
  obtain ⟨more, hmore⟩ := hcut
  have hdrain := Decoder.drain_append (.new limit) octets more
  rw [hmore, drain_encodings h] at hdrain
  cases herror : ((Decoder.new limit).drain octets).error with
  | some error =>
    simp only [Drained.resume, herror, Drained.mk.injEq] at hdrain
    cases hdrain.2.1
  | none =>
    simp only [Drained.resume, herror, Drained.mk.injEq] at hdrain
    exact ⟨rfl, _, hdrain.1.symm⟩

end MaskedFrame

/-- A decoder and the encoding of a client undo each other. -/
structure RoundTrips (limit : Nat) : Prop where
  /-- The frames that a client encodes are decoded one after another, and nothing else is. -/
  decoded : ∀ frames : List MaskedFrame, (∀ frame ∈ frames, frame.Fits limit) →
    (Decoder.new limit).drain (MaskedFrame.encodings frames) =
      ⟨frames.map (·.received), none, .new limit, []⟩
  /-- A frame that a decoder gave is encoded by the octets that it took just when they write the
  length in its shortest form. -/
  encoded : ∀ input frame, ((Decoder.new limit).decode input).result = .ok (some frame) →
    ∃ taken first form key, input = taken ++ ((Decoder.new limit).decode input).rest ∧
      taken = spell first form key frame.payload ∧ form.Holds frame.payload.length ∧
      (encodeFrame first frame.payload (some key) = taken ↔
        form = .shortest frame.payload.length)

theorem round_trips (limit : Nat) : RoundTrips limit where
  decoded _ h := MaskedFrame.drain_encodings h
  encoded := by
    intro input frame hframe
    have hbegins := Decoder.decode_new_frame_iff.mp ⟨hframe, rfl⟩
    generalize ((Decoder.new limit).decode input).rest = rest at hbegins
    cases hbegins with | @frame opcode key body _ hheads
    obtain ⟨-, -, form, hholds, rfl⟩ := hheads.eq
    rw [← MaskKey.apply_eq_mapIdx]
    refine ⟨spell (0x80 ||| opcode.bits) form key (key.apply body), _, form, key, ?_, rfl, ?_, ?_⟩
    · simp only [spell, MaskKey.length_apply, MaskKey.apply_apply, List.cons_append,
        List.append_assoc]
    · rw [MaskKey.length_apply]
      exact hholds
    · rw [encodeFrame_eq_spell]
      constructor
      · intro hsame
        exact (spell_inj_form hsame).symm
      · intro hshortest
        rw [← hshortest]

/-- A length of five in two octets of its own is read, but not written again. -/
example : ((Decoder.new 125).decode
      [0x82, 0xFE, 0, 5, 0, 0, 0, 0, 1, 2, 3, 4, 5]).result = .ok (some ⟨.binary, [1, 2, 3, 4, 5]⟩) ∧
    encodeFrame 0x82 [1, 2, 3, 4, 5] (some ⟨0, 0, 0, 0⟩) ≠
      [0x82, 0xFE, 0, 5, 0, 0, 0, 0, 1, 2, 3, 4, 5] := by
  decide +kernel

end WebSocket
