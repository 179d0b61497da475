import WebSocket.Proofs.Wire.RoundTrip

/-!
# What a decoder leaves over

A step that gives a frame takes octets from the buffer, so a drain ends after at most as many steps
as there are octets.  A step that gives nothing leaves little: fewer octets than the longest header
has, or fewer than the payload under way has, which is within the limit.

One step may take a header and a later one the payload.  That the later one takes octets too is an
invariant of all decoders that come of a new one: they never hold a header of an empty payload
(`Decoder.Sound`).

    Sound limit d → (d.decode input).decoder.Sound limit                        (Sound.decode)
    (d.decode input).result = .ok (some frame) →
      (d.decode input).rest.length < input.length                               (Sound.shrinks)
    (d.decode input).result = .ok none →
      (d.decode input).decoder.awaiting.Leaves d.limit (d.decode input).rest    (Sound.leaves)
-/

namespace WebSocket

/-! ## Headers -/

/-- A length takes eight octets at most. -/
theorem length_le_of_declaredLength {second : UInt8} {octets rest : Bytes} {length : Nat}
    (h : declaredLength? second octets = some (length, rest)) :
    octets.length ≤ rest.length + 8 := by
  obtain ⟨form, -, -, rfl⟩ := declaredLength?_eq_some_iff.mp h
  rw [List.length_append, form.length_extension]
  cases form with
  | inline => simp
  | medium => simp only; omega
  | long => simp only; omega

theorem length_lt_of_declaredLength_none {second : UInt8} {octets : Bytes}
    (h : declaredLength? second octets = none) : octets.length < 8 := by
  simp only [declaredLength?] at h
  split at h
  · rw [Option.map_eq_none_iff, takeExactly_eq_none_iff] at h
    omega
  · split at h
    · rw [Option.map_eq_none_iff, takeExactly_eq_none_iff] at h
      exact h
    · cases h

/-- Octets in which no header can be told yet are fewer than a header may have. -/
theorem length_lt_of_readHeader_none {limit : Nat} {input : Bytes}
    (h : readHeader limit input = .ok none) : input.length < maxHeaderLength := by
  unfold maxHeaderLength
  rcases input with _ | ⟨first, _ | ⟨second, octets⟩⟩
  · simp
  · simp
  · simp only [List.length_cons]
    simp only [readHeader] at h
    cases hfixed : fixedViolation? first second with
    | some error => rw [hfixed] at h; cases h
    | none =>
      rw [hfixed] at h
      cases hdeclared : declaredLength? second octets with
      | none =>
        have := length_lt_of_declaredLength_none hdeclared
        omega
      | some declared =>
        obtain ⟨length, rest⟩ := declared
        have hoctets := length_le_of_declaredLength hdeclared
        rw [hdeclared] at h
        dsimp only at h
        split at h
        · cases h
        · -- The length is within bounds, so what is missing is part of the key.
          split at h
          · cases h
          · rename_i hkey
            have : rest.length < 4 := by
              by_contra hlong
              rcases rest with _ | ⟨a, _ | ⟨b, _ | ⟨c, _ | ⟨d, rest⟩⟩⟩⟩
              · simp at hlong
              · simp at hlong
              · simp at hlong
              · simp at hlong
              · exact hkey a b c d rest rfl
            omega

/-- A header is taken only with a length within the limit. -/
theorem length_le_of_readHeader {limit : Nat} {input rest : Bytes} {head : FrameHeader}
    (h : readHeader (clampPayloadLimit limit) input = .ok (some (head, rest))) :
    head.length ≤ clampPayloadLimit limit := by
  obtain @⟨_, _, _, _, _, _, _, _, hwithin, _⟩ := readHeader_eq_header_iff.mp h
  exact hwithin

/-! ## Steps -/

/-- How little may be left in the buffer when more has to come. -/
def Awaiting.Leaves (limit : Nat) (rest : Bytes) : Awaiting → Prop
  | header => rest.length < maxHeaderLength
  | payload head => rest.length < head.length ∧ head.length ≤ limit

namespace Decoder

/-- What is true of a decoder between two steps: a header that it holds has a payload to wait for,
within the limit. -/
structure Sound (limit : Nat) (decoder : Decoder) : Prop where
  limit_eq : decoder.limit = clampPayloadLimit limit
  owed : ∀ head, decoder.awaiting = .payload head → 0 < head.length ∧ head.length ≤ decoder.limit

/-- The decoders that come of a new one, with any octets in the buffer at any step. -/
inductive Reachable (limit : Nat) : Decoder → Prop
  | new : Reachable limit (.new limit)
  | decode {decoder : Decoder} (buffer : Bytes) :
      Reachable limit decoder → Reachable limit (decoder.decode buffer).decoder

variable {limit : Nat} {decoder : Decoder} {input : Bytes}

/-- What a step may come to. -/
inductive Step (limit : Nat) (decoder : Decoder) (input : Bytes) : Decoded → Prop
  /-- A header is there: it was held, or octets of the buffer make it. -/
  | headed {head : FrameHeader} {octets : Bytes} : head.length ≤ clampPayloadLimit limit →
      octets.length ≤ input.length → (octets.length < input.length ∨ 0 < head.length) →
      Step limit decoder input (decoder.decodePayload head octets)
  /-- No header is there yet. -/
  | waits : decoder.awaiting = .header → input.length < maxHeaderLength →
      Step limit decoder input ⟨.ok none, decoder, input⟩
  /-- The octets make no header. -/
  | refuses {error : FrameError} : Step limit decoder input ⟨.error error, decoder, input⟩

theorem sound_new (limit : Nat) : (new limit).Sound limit := ⟨rfl, nofun⟩

theorem Sound.step (h : decoder.Sound limit) (input : Bytes) :
    Step limit decoder input (decoder.decode input) := by
  unfold decode
  cases hawaiting : decoder.awaiting with
  | payload head =>
    obtain ⟨hpos, hwithin⟩ := h.owed head hawaiting
    exact .headed (h.limit_eq ▸ hwithin) (Nat.le_refl _) (.inr hpos)
  | header =>
    dsimp only
    cases hheader : readHeader decoder.limit input with
    | error error => exact .refuses
    | ok header =>
      cases header with
      | none => exact .waits hawaiting (length_lt_of_readHeader_none hheader)
      | some header =>
        have hless := length_readHeader hheader
        rw [h.limit_eq] at hheader
        exact .headed (length_le_of_readHeader hheader) (by omega) (.inl (by omega))

/-- Less than the whole payload is there when the payload is not taken. -/
theorem decodePayload_of_nothing {head : FrameHeader}
    (h : (decoder.decodePayload head input).result = .ok none) :
    decoder.decodePayload head input =
        ⟨.ok none, { decoder with awaiting := .payload head }, input⟩ ∧
      input.length < head.length := by
  unfold decodePayload at h ⊢
  cases htaken : takeExactly head.length input with
  | none => exact ⟨rfl, takeExactly_eq_none_iff.mp htaken⟩
  | some taken => rw [htaken] at h; cases h

theorem length_decodePayload_le (decoder : Decoder) (head : FrameHeader) (input : Bytes) :
    (decoder.decodePayload head input).rest.length ≤ input.length := by
  unfold decodePayload
  cases htaken : takeExactly head.length input with
  | none => exact Nat.le_refl _
  | some taken =>
    obtain ⟨hinput, -⟩ := takeExactly_eq_some_iff.mp htaken
    simp [hinput]

namespace Sound

/-- A decoder holds a header only as long as part of the payload is missing. -/
theorem decodePayload (h : decoder.Sound limit) {head : FrameHeader}
    (hwithin : head.length ≤ clampPayloadLimit limit) (input : Bytes) :
    (decoder.decodePayload head input).decoder.Sound limit := by
  unfold Decoder.decodePayload
  cases htaken : takeExactly head.length input with
  | some taken => exact ⟨h.limit_eq, nofun⟩
  | none =>
    have hshort := takeExactly_eq_none_iff.mp htaken
    refine ⟨h.limit_eq, fun held hheld => ?_⟩
    cases hheld
    exact ⟨by omega, h.limit_eq.symm ▸ hwithin⟩

theorem decode (h : decoder.Sound limit) (input : Bytes) :
    (decoder.decode input).decoder.Sound limit := by
  have hstep := h.step input
  generalize decoder.decode input = decoded at hstep ⊢
  cases hstep with
  | headed hwithin => exact h.decodePayload hwithin _
  | waits => exact h
  | refuses => exact h

/-- No step adds octets to the buffer. -/
theorem length_decode_le (h : decoder.Sound limit) (input : Bytes) :
    (decoder.decode input).rest.length ≤ input.length := by
  have hstep := h.step input
  generalize decoder.decode input = decoded at hstep ⊢
  cases hstep with
  | @headed head octets _ hle => exact Nat.le_trans (length_decodePayload_le ..) hle
  | waits => exact Nat.le_refl _
  | refuses => exact Nat.le_refl _

/-- A step that gives a frame takes octets from the buffer. -/
theorem shrinks (h : decoder.Sound limit) {frame : InboundFrame}
    (hframe : (decoder.decode input).result = .ok (some frame)) :
    (decoder.decode input).rest.length < input.length := by
  have hstep := h.step input
  generalize decoder.decode input = decoded at hstep hframe ⊢
  cases hstep with
  | waits => cases hframe
  | refuses => cases hframe
  | @headed head octets _ hle hless =>
    obtain ⟨body, hoctets, hlength, -⟩ := decodePayload_eq_frame_iff.mp ⟨hframe, rfl⟩
    have hwhole := congrArg List.length hoctets
    rw [List.length_append] at hwhole
    omega

/-- A step that gives nothing leaves little in the buffer. -/
theorem leaves (h : decoder.Sound limit) (hnothing : (decoder.decode input).result = .ok none) :
    (decoder.decode input).decoder.awaiting.Leaves (clampPayloadLimit limit)
      (decoder.decode input).rest := by
  have hstep := h.step input
  generalize decoder.decode input = decoded at hstep hnothing ⊢
  cases hstep with
  | headed hwithin =>
    obtain ⟨hsame, hshort⟩ := decodePayload_of_nothing hnothing
    rw [hsame]
    exact ⟨hshort, hwithin⟩
  | waits hawaiting hshort =>
    dsimp only
    rw [hawaiting]
    exact hshort
  | refuses => cases hnothing

end Sound

/-- A header that lacks one octet is the longest that no decoder can tell yet. -/
example : ((new 0).decode [0x82, 0xFF, 0, 0, 0, 0, 0, 0, 0, 1, 2, 3, 4]).result = .ok none := by
  decide +kernel

theorem Reachable.sound (h : Reachable limit decoder) : decoder.Sound limit := by
  induction h with
  | new => exact sound_new limit
  | decode buffer _ ih => exact ih.decode buffer

/-! ## Draining -/

namespace Sound

theorem drain (h : decoder.Sound limit) (input : Bytes) :
    (decoder.drain input).decoder.Sound limit := by
  fun_induction Decoder.drain decoder input with
  | case1 decoder input => exact h.decode input
  | case2 decoder input => exact h.decode input
  | case3 decoder input frame hframe later ih => exact ih (h.decode input)

/-- A drain gives at most as many frames as it takes octets. -/
theorem length_drain (h : decoder.Sound limit) (input : Bytes) :
    (decoder.drain input).frames.length + (decoder.drain input).rest.length ≤ input.length := by
  fun_induction Decoder.drain decoder input with
  | case1 decoder input => simpa using h.length_decode_le input
  | case2 decoder input => simpa using h.length_decode_le input
  | case3 decoder input frame hframe later ih =>
    have hlater : later.frames.length + later.rest.length ≤ (decoder.decode input).rest.length :=
      ih (h.decode input)
    have hless := h.shrinks hframe
    simp only [List.length_cons]
    omega

/-- A drain that ends without an error leaves little in the buffer. -/
theorem drain_leaves (h : decoder.Sound limit) (hnone : (decoder.drain input).error = none) :
    (decoder.drain input).decoder.awaiting.Leaves (clampPayloadLimit limit)
      (decoder.drain input).rest := by
  fun_induction Decoder.drain decoder input with
  | case1 decoder input error herror => cases hnone
  | case2 decoder input hnothing => exact h.leaves hnothing
  | case3 decoder input frame hframe later ih => exact ih (h.decode input) hnone

end Sound

end Decoder

end WebSocket
