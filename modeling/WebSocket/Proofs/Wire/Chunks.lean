import WebSocket.Wire.Decoder

/-!
# Octets in chunks

A stream hands out its octets in pieces, and a piece may end anywhere: within a header, within a
payload, or between frames.  A step of the decoder that comes to something comes to the same when
more octets follow, and one that comes to nothing goes on from where it stopped:

    d.decode (input ++ more) = (d.decode input).resume more           (decode_append)
    d.drain (input ++ more) = (d.drain input).resume more             (drain_append)

So a decoder that is fed chunk after chunk gives what it gives of all octets at once
(`feed_chunks`).
-/

namespace WebSocket

/-! ## Headers -/

theorem takeExactly_append {n : Nat} {octets a b : Bytes} (h : takeExactly n octets = some (a, b))
    (more : Bytes) : takeExactly n (octets ++ more) = some (a, b ++ more) := by
  rw [takeExactly_eq_some_iff] at h ⊢
  obtain ⟨rfl, hlength⟩ := h
  exact ⟨List.append_assoc .., hlength⟩

theorem declaredLength?_append {second : UInt8} {octets rest : Bytes} {length : Nat}
    (h : declaredLength? second octets = some (length, rest)) (more : Bytes) :
    declaredLength? second (octets ++ more) = some (length, rest ++ more) := by
  have hdigits {width : Nat} (h : (takeExactly width octets).map
      (fun taken => (BigEndian.decode taken.1, taken.2)) = some (length, rest)) :
      (takeExactly width (octets ++ more)).map
        (fun taken => (BigEndian.decode taken.1, taken.2)) = some (length, rest ++ more) := by
    obtain ⟨⟨digits, rest'⟩, htaken, hsame⟩ := Option.map_eq_some_iff.mp h
    cases hsame
    rw [takeExactly_append htaken]
    rfl
  simp only [declaredLength?] at h ⊢
  split at h
  · rename_i hmedium
    rw [if_pos hmedium]
    exact hdigits h
  · rename_i hmedium
    rw [if_neg hmedium]
    split at h
    · rename_i hlong
      rw [if_pos hlong]
      exact hdigits h
    · rename_i hlong
      rw [if_neg hlong]
      cases h
      rfl

/-- A header that can be told from some octets is told in the same way when more follow. -/
theorem readHeader_append (limit : Nat) (input more : Bytes) :
    readHeader limit (input ++ more) =
      match readHeader limit input with
      | .error error => .error error
      | .ok (some (head, rest)) => .ok (some (head, rest ++ more))
      | .ok none => readHeader limit (input ++ more) := by
  match input with
  | [] | [_] => rfl
  | first :: second :: octets =>
    simp only [readHeader, List.cons_append]
    cases fixedViolation? first second with
    | some error => rfl
    | none =>
      cases hdeclared : declaredLength? second octets with
      | none => rfl
      | some declared =>
        obtain ⟨length, rest⟩ := declared
        rw [declaredLength?_append hdeclared]
        dsimp only
        cases lengthViolation? limit (Opcode.ofBits first) length with
        | some error => rfl
        | none =>
          match rest with
          | [] | [_] | [_, _] | [_, _, _] => rfl
          | _ :: _ :: _ :: _ :: _ => rfl

/-! ## Steps -/

/-- What comes of a step when more octets follow: the same if it came to something, and otherwise
what comes of the next step. -/
def Decoded.resume (decoded : Decoded) (more : Bytes) : Decoded :=
  match decoded.result with
  | .ok none => decoded.decoder.decode (decoded.rest ++ more)
  | _ => { decoded with rest := decoded.rest ++ more }

namespace Decoder

theorem decodePayload_append (decoder : Decoder) (head : FrameHeader) (input more : Bytes) :
    decoder.decodePayload head (input ++ more) =
      (decoder.decodePayload head input).resume more := by
  cases htaken : takeExactly head.length input with
  | none => simp only [decodePayload, htaken, Decoded.resume, decode]
  | some taken =>
    obtain ⟨body, rest⟩ := taken
    simp only [decodePayload, htaken, takeExactly_append htaken, Decoded.resume]

theorem decode_append (decoder : Decoder) (input more : Bytes) :
    decoder.decode (input ++ more) = (decoder.decode input).resume more := by
  unfold decode
  split
  · exact decodePayload_append decoder _ input more
  · rename_i hawaiting
    rw [readHeader_append]
    cases readHeader decoder.limit input with
    | error error => rfl
    | ok header =>
      cases header with
      | none => simp only [Decoded.resume, decode, hawaiting]
      | some header => exact decodePayload_append decoder header.1 header.2 more

end Decoder

/-! ## Draining -/

/-- What comes of draining when more octets follow: after an error they stay in the buffer. -/
def Drained.resume (drained : Drained) (more : Bytes) : Drained :=
  match drained.error with
  | some _ => { drained with rest := drained.rest ++ more }
  | none =>
    let later := drained.decoder.drain (drained.rest ++ more)
    { later with frames := drained.frames ++ later.frames }

namespace Decoder

/-- Draining is settled by the first step. -/
theorem drain_eq (decoder : Decoder) (input : Bytes) :
    decoder.drain input =
      let first := decoder.decode input
      match first.result with
      | .error error => ⟨[], some error, first.decoder, first.rest⟩
      | .ok none => ⟨[], none, first.decoder, first.rest⟩
      | .ok (some frame) =>
        let later := first.decoder.drain first.rest
        { later with frames := frame :: later.frames } := by
  rw [drain]
  split <;> simp_all only

variable {decoder : Decoder} {input : Bytes}

theorem drain_of_error {error : FrameError} (h : (decoder.decode input).result = .error error) :
    decoder.drain input =
      ⟨[], some error, (decoder.decode input).decoder, (decoder.decode input).rest⟩ := by
  rw [drain_eq]
  simp only [h]

theorem drain_of_nothing (h : (decoder.decode input).result = .ok none) :
    decoder.drain input =
      ⟨[], none, (decoder.decode input).decoder, (decoder.decode input).rest⟩ := by
  rw [drain_eq]
  simp only [h]

theorem drain_of_frame {frame : InboundFrame}
    (h : (decoder.decode input).result = .ok (some frame)) :
    decoder.drain input =
      let later := (decoder.decode input).decoder.drain (decoder.decode input).rest
      { later with frames := frame :: later.frames } := by
  rw [drain_eq]
  simp only [h]

/-- Between frames there is nothing to decode in no octets. -/
theorem drain_nil (h : decoder.awaiting = .header) :
    decoder.drain [] = ⟨[], none, decoder, []⟩ := by
  have hnothing : decoder.decode [] = ⟨.ok none, decoder, []⟩ := by
    simp only [decode, h, readHeader]
  rw [drain_of_nothing (by rw [hnothing]), hnothing]

theorem drain_append (decoder : Decoder) (input more : Bytes) :
    decoder.drain (input ++ more) = (decoder.drain input).resume more := by
  fun_induction drain decoder input with
  | case1 decoder input error herror =>
    rw [drain_eq, decode_append]
    simp only [Decoded.resume, herror, Drained.resume]
  | case2 decoder input hnothing =>
    rw [drain_eq, decode_append]
    simp only [Decoded.resume, hnothing, Drained.resume, List.nil_append]
    exact (drain_eq _ _).symm
  -- The frame that comes first comes first with more octets too, and the rest is the induction.
  | case3 decoder input frame hframe later ih =>
    rw [drain_eq, decode_append]
    simp only [Decoded.resume, hframe, ih, Drained.resume]
    cases later.error with
    | some error => rfl
    | none => rfl

/-- What is left of drained octets gives nothing more. -/
theorem drain_rest {decoder later : Decoder} {input rest : Bytes} {frames : List InboundFrame}
    (h : decoder.drain input = ⟨frames, none, later, rest⟩) :
    later.drain rest = ⟨[], none, later, rest⟩ := by
  have hsame := decoder.drain_append input []
  rw [List.append_nil, h] at hsame
  simp only [Drained.resume, List.append_nil] at hsame
  generalize later.drain rest = again at hsame ⊢
  obtain ⟨more, error, decoder', rest'⟩ := again
  simp only [Drained.mk.injEq, List.self_eq_append_right] at hsame
  obtain ⟨rfl, rfl, rfl, rfl⟩ := hsame
  rfl

/-! ## Chunks -/

/-- Feed a decoder chunk after chunk: each joins the buffer, which is then drained.  The first error
is the end. -/
def feed (decoder : Decoder) (buffer : Bytes) : List Bytes → Drained
  | [] => ⟨[], none, decoder, buffer⟩
  | chunk :: chunks =>
    let first := decoder.drain (buffer ++ chunk)
    match first.error with
    | some _ => first
    | none =>
      let later := first.decoder.feed first.rest chunks
      { later with frames := first.frames ++ later.frames }

theorem feed_of_error {decoder : Decoder} {buffer chunk : Bytes} {error : FrameError}
    (h : (decoder.drain (buffer ++ chunk)).error = some error) (chunks : List Bytes) :
    decoder.feed buffer (chunk :: chunks) = decoder.drain (buffer ++ chunk) := by
  simp only [feed, h]

theorem feed_of_none {decoder : Decoder} {buffer chunk : Bytes}
    (h : (decoder.drain (buffer ++ chunk)).error = none) (chunks : List Bytes) :
    decoder.feed buffer (chunk :: chunks) =
      let first := decoder.drain (buffer ++ chunk)
      let later := first.decoder.feed first.rest chunks
      { later with frames := first.frames ++ later.frames } := by
  simp only [feed, h]

/-- To feed one chunk is to drain the buffer with it. -/
theorem feed_singleton (decoder : Decoder) (buffer chunk : Bytes) :
    decoder.feed buffer [chunk] = decoder.drain (buffer ++ chunk) := by
  cases herror : (decoder.drain (buffer ++ chunk)).error with
  | some error => exact feed_of_error herror []
  | none =>
    rw [feed_of_none herror]
    simp only [feed, List.append_nil]
    rw [← herror]

/-- What is fed in chunks is drained at once, apart from the chunks that come after an error. -/
theorem drain_flatten (decoder : Decoder) (buffer chunk : Bytes) (chunks : List Bytes) :
    let parts := decoder.feed buffer (chunk :: chunks)
    ∃ unread, decoder.drain (buffer ++ (chunk ++ chunks.flatten)) =
        { parts with rest := parts.rest ++ unread } ∧
      (parts.error = none → unread = []) := by
  induction chunks generalizing decoder buffer chunk with
  | nil =>
    refine ⟨[], ?_, fun _ => rfl⟩
    simp only [feed_singleton, List.flatten_nil, List.append_nil]
  | cons next chunks ih =>
    rw [← List.append_assoc, drain_append]
    cases herror : (decoder.drain (buffer ++ chunk)).error with
    | some error =>
      rw [feed_of_error herror]
      refine ⟨(next :: chunks).flatten, ?_, fun hnone => ?_⟩
      · simp only [Drained.resume, herror]
      · rw [herror] at hnone
        cases hnone
    -- The buffer is whatever the first chunk left, so the induction goes on from there.
    | none =>
      rw [feed_of_none herror]
      obtain ⟨unread, hdrain, hall⟩ :=
        ih (decoder.drain (buffer ++ chunk)).decoder (decoder.drain (buffer ++ chunk)).rest next
      refine ⟨unread, ?_, hall⟩
      simp only [Drained.resume, herror, List.flatten_cons, hdrain]

/-- However octets are cut into chunks, a new decoder gives of them the frames and the error that it
gives of all of them at once; and without an error it is left in the same state, with the same
octets in its buffer. -/
theorem feed_chunks (limit : Nat) (chunks : List Bytes) :
    let parts := (new limit).feed [] chunks
    let whole := (new limit).feed [] [chunks.flatten]
    parts.frames = whole.frames ∧ parts.error = whole.error ∧
      (whole.error = none → parts.rest = whole.rest ∧ parts.decoder = whole.decoder) := by
  intro parts whole
  have hwhole : whole = (new limit).drain chunks.flatten := feed_singleton _ _ _
  cases chunks with
  | nil =>
    rw [List.flatten_nil, drain_nil rfl] at hwhole
    rw [hwhole]
    exact ⟨rfl, rfl, fun _ => ⟨rfl, rfl⟩⟩
  | cons chunk chunks =>
    obtain ⟨unread, hdrain, hall⟩ := drain_flatten (new limit) [] chunk chunks
    rw [List.nil_append, ← List.flatten_cons] at hdrain
    rw [hwhole, hdrain]
    refine ⟨rfl, rfl, fun hnone => ⟨?_, rfl⟩⟩
    rw [hall hnone, List.append_nil]

end Decoder

end WebSocket
