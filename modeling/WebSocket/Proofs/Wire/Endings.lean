import WebSocket.Proofs.Wire.Leftovers

/-!
# How decoding ends

Decoding ends when octets break a rule, or when there are no more of them.

A broken rule is the end for good.  The decoder and the buffer stay as they are, and whatever comes
behind the octets, the same rule is the first that they break:

    (d.decode input).result = .error error →
      d.decode (input ++ more) = ⟨.error error, d, input ++ more⟩           (decode_append_of_error)

At the end of a stream, octets that are left over in the buffer are reported.  All octets are whole
frames with something behind them that makes no frame, and of this nothing is left in the buffer
just where it is nothing or the header of a payload of which nothing has come, since a header is
taken before its payload (`Unnoticed`):

    (new limit).drain (whole ++ last) = { (new limit).drain last with frames := .. }
      where whole are whole frames                                              (drain_tiles_append)
    ((new limit).drain octets).rest = [] ↔
      octets are whole frames and then what goes unnoticed                         (rest_eq_nil_iff)
-/

namespace WebSocket

/-! ## Refusing octets -/

namespace Decoder

variable {limit : Nat} {decoder : Decoder} {input : Bytes} {error : FrameError}

/-- Only a decoder between frames refuses octets, and it stays as it is, with the octets. -/
theorem decode_of_error (h : (decoder.decode input).result = .error error) :
    decoder.awaiting = .header ∧ decoder.decode input = ⟨.error error, decoder, input⟩ := by
  unfold decode at h ⊢
  cases hawaiting : decoder.awaiting with
  | payload head =>
    rw [hawaiting] at h
    exact absurd h (decodePayload_result decoder head input error)
  | header =>
    rw [hawaiting] at h
    dsimp only at h ⊢
    cases hheader : readHeader decoder.limit input with
    | error other =>
      rw [hheader] at h
      cases h
      exact ⟨rfl, rfl⟩
    | ok header =>
      rw [hheader] at h
      cases header with
      | none => cases h
      | some header => exact absurd h (decodePayload_result decoder header.1 header.2 error)

/-- Octets that are refused are refused for the same reason when more come. -/
theorem decode_append_of_error (h : (decoder.decode input).result = .error error) (more : Bytes) :
    decoder.decode (input ++ more) = ⟨.error error, decoder, input ++ more⟩ := by
  rw [decode_append, (decode_of_error h).2]
  rfl

/-- What may become of a decoder and its buffer: octets come, and steps are taken. -/
inductive Onward (decoder : Decoder) (buffer : Bytes) : Decoder → Bytes → Prop
  | here : Onward decoder buffer decoder buffer
  | receive {later : Decoder} {octets : Bytes} (more : Bytes) :
      Onward decoder buffer later octets → Onward decoder buffer later (octets ++ more)
  | decode {later : Decoder} {octets : Bytes} : Onward decoder buffer later octets →
      Onward decoder buffer (later.decode octets).decoder (later.decode octets).rest

/-- Once octets are refused, nothing comes of a decoder but more octets in its buffer. -/
theorem Onward.of_error (h : (decoder.decode input).result = .error error) {later : Decoder}
    {octets : Bytes} (honward : decoder.Onward input later octets) :
    later = decoder ∧ input <+: octets := by
  induction honward with
  | here => exact ⟨rfl, List.prefix_refl input⟩
  | receive more _ ih => exact ⟨ih.1, ih.2.trans (List.prefix_append _ more)⟩
  | decode _ ih =>
    obtain ⟨rfl, more, rfl⟩ := ih
    rw [decode_append_of_error h more]
    exact ⟨rfl, List.prefix_append input more⟩

theorem Reachable.eq_new (h : Reachable limit decoder) (hawaiting : decoder.awaiting = .header) :
    decoder = Decoder.new limit := by
  have hlimit := h.sound.limit_eq
  obtain ⟨most, awaiting⟩ := decoder
  obtain rfl : most = clampPayloadLimit limit := hlimit
  obtain rfl : awaiting = .header := hawaiting
  rfl

/-- What it means for a decoder to refuse what is in its buffer. -/
structure Refuses (limit : Nat) (decoder : Decoder) (buffer : Bytes) (error : FrameError) :
    Prop where
  between : decoder.awaiting = .header
  /-- The decoder and the buffer stay as they are. -/
  unchanged : decoder.decode buffer = ⟨.error error, decoder, buffer⟩
  /-- Whatever comes behind the octets, the error is that of the first rule that they break. -/
  rule : ∀ more, firstViolation? limit (buffer ++ more) = some error
  /-- More octets change nothing about it. -/
  again : ∀ more, decoder.decode (buffer ++ more) = ⟨.error error, decoder, buffer ++ more⟩
  /-- Nor does anything else: no frame and no other error ever comes. -/
  forGood : ∀ later octets, decoder.Onward buffer later octets →
    later = decoder ∧ buffer <+: octets ∧ later.decode octets = ⟨.error error, decoder, octets⟩

/-- A decoder that refuses what is in its buffer refuses it for good. -/
theorem refuses_for_good (h : Reachable limit decoder) {buffer : Bytes}
    (herror : (decoder.decode buffer).result = .error error) :
    decoder.Refuses limit buffer error where
  between := (decode_of_error herror).1
  unchanged := (decode_of_error herror).2
  rule := by
    intro more
    have hagain := decode_append_of_error herror more
    rw [h.eq_new (decode_of_error herror).1] at hagain
    exact decode_new_error_iff.mp (congrArg Decoded.result hagain)
  again := decode_append_of_error herror
  forGood := by
    intro later octets honward
    obtain ⟨rfl, more, rfl⟩ := honward.of_error herror
    exact ⟨rfl, List.prefix_append buffer more, decode_append_of_error herror more⟩

/-- A decoder that has given a frame refuses a length of 126 octets before any octet of the key is
there, and still when the whole frame has come. -/
theorem refuses_for_good_length :
    let decoder := ((new 125).decode [0x8A, 0x80, 1, 2, 3, 4]).decoder
    let whole : Bytes := [0x82, 0xFE, 0, 126] ++ ([1, 2, 3, 4] ++ List.replicate 126 0)
    Reachable 125 decoder ∧
      (decoder.decode [0x82, 0xFE, 0, 126]).result = .error (.oversizedPayload 126 125) ∧
      (decoder.decode whole).result = .error (.oversizedPayload 126 125) ∧
      (decoder.decode whole).rest = whole := by
  intro decoder whole
  have hreachable : Reachable 125 decoder := .decode _ .new
  have herror :
      (decoder.decode [0x82, 0xFE, 0, 126]).result = .error (.oversizedPayload 126 125) := by
    decide +kernel
  have hagain := (refuses_for_good hreachable herror).again ([1, 2, 3, 4] ++ List.replicate 126 0)
  exact ⟨hreachable, herror, congrArg Decoded.result hagain, congrArg Decoded.rest hagain⟩

end Decoder

/-! ## What goes unnoticed -/

/-- Octets of which a decoder keeps none in its buffer although they make no frame: no octets, or a
whole header whose payload is still to come. -/
inductive Unnoticed (limit : Nat) : Bytes → Prop
  | nothing : Unnoticed limit []
  | header {octets : Bytes} {head : FrameHeader} :
      Heads limit octets head [] → 0 < head.length → Unnoticed limit octets

variable {limit : Nat} {octets rest more : Bytes}

namespace Decoder

/-- A header without its payload is taken from the buffer. -/
theorem decode_of_heads {head : FrameHeader} (h : Heads limit octets head rest)
    (hshort : rest.length < head.length) :
    (new limit).decode octets = ⟨.ok none, ⟨clampPayloadLimit limit, .payload head⟩, rest⟩ := by
  have htaken : takeExactly head.length rest = none := takeExactly_eq_none_iff.mpr hshort
  rw [decode_new, readHeader_eq_header_iff.mpr h]
  simp only [decodePayload, htaken]
  rfl

theorem decode_of_unnoticed (h : Unnoticed limit octets) :
    ((new limit).decode octets).result = .ok none ∧ ((new limit).decode octets).rest = [] := by
  cases h with
  | nothing => exact ⟨rfl, rfl⟩
  | header hheads hpos =>
    rw [decode_of_heads hheads hpos]
    exact ⟨rfl, rfl⟩

/-- Octets that make no frame stay in the buffer, unless they go unnoticed. -/
theorem unnoticed_of_decode (hnothing : ((new limit).decode octets).result = .ok none)
    (hrest : ((new limit).decode octets).rest = []) : Unnoticed limit octets := by
  rw [decode_new] at hnothing hrest
  cases hheader : readHeader (clampPayloadLimit limit) octets with
  | error error =>
    rw [hheader] at hnothing
    cases hnothing
  | ok header =>
    rw [hheader] at hnothing hrest
    cases header with
    | none =>
      obtain rfl : octets = [] := hrest
      exact .nothing
    | some header =>
      obtain ⟨head, rest⟩ := header
      obtain ⟨hsame, hshort⟩ := decodePayload_of_nothing hnothing
      dsimp only at hrest
      rw [hsame] at hrest
      obtain rfl : rest = [] := hrest
      exact .header (readHeader_eq_header_iff.mp hheader) hshort

/-- Nothing is left in the buffer just where nothing, or nothing that is noticed, comes behind whole
frames. -/
theorem rest_eq_nil_iff (h : ((new limit).drain octets).error = none) :
    ((new limit).drain octets).rest = [] ↔
      ∃ whole last frames, octets = whole ++ last ∧ Tiles limit whole frames ∧
        Unnoticed limit last := by
  constructor
  · intro hrest
    obtain ⟨whole, last, hoctets, htiles, hlast⟩ := exists_tiles limit octets
    refine ⟨whole, last, _, hoctets, htiles, ?_⟩
    rw [hoctets, drain_tiles_append htiles] at h hrest
    cases hresult : ((new limit).decode last).result with
    | error error =>
      rw [drain_of_error hresult] at h
      cases h
    | ok frame? =>
      cases frame? with
      | some frame => exact absurd hresult (hlast frame)
      | none =>
        rw [drain_of_nothing hresult] at hrest
        exact unnoticed_of_decode hresult hrest
  · rintro ⟨whole, last, frames, rfl, htiles, hlast⟩
    obtain ⟨hnothing, hrest⟩ := decode_of_unnoticed hlast
    rw [drain_tiles_append htiles, drain_of_nothing hnothing]
    exact hrest

/-! ## The end of a stream -/

/-- What a new decoder reports at the end of a stream that carried some octets. -/
def atEnd (limit : Nat) (octets : Bytes) : Except FrameError (Option InboundFrame) :=
  let drained := (new limit).drain octets
  (drained.decoder.decodeEnd drained.rest).result

/-- The error for octets that are left over at the end of a stream. -/
def leftOver : FrameError := .stream ⟨.other, some "bytes remaining on stream"⟩

/-- Once all has been decoded, the last step looks only whether octets are left over. -/
theorem atEnd_eq (h : ((new limit).drain octets).error = none) :
    atEnd limit octets =
      if ((new limit).drain octets).rest = [] then .ok none else .error leftOver := by
  unfold atEnd
  generalize hdrain : (new limit).drain octets = drained at h ⊢
  obtain ⟨frames, _, later, rest⟩ := drained
  subst h
  have hagain := drain_rest hdrain
  have hnothing : (later.decode rest).result = .ok none ∧ (later.decode rest).rest = rest := by
    cases hresult : (later.decode rest).result with
    | error error =>
      rw [drain_of_error hresult] at hagain
      cases congrArg Drained.error hagain
    | ok frame? =>
      cases frame? with
      | none =>
        rw [drain_of_nothing hresult] at hagain
        exact ⟨rfl, congrArg Drained.rest hagain⟩
      | some frame =>
        rw [drain_of_frame hresult] at hagain
        cases congrArg Drained.frames hagain
  simp only [decodeEnd, hnothing.1, hnothing.2, List.isEmpty_iff]
  split
  · exact hnothing.1
  · rfl

/-- Octets of whole frames, cut between the header and the payload of one of them. -/
inductive CutBehindHeader (limit : Nat) : Bytes → Bytes → Prop
  | cut {whole header body rest : Bytes} {frames : List InboundFrame} {head : FrameHeader} :
      Tiles limit whole frames → Heads limit header head [] → body.length = head.length →
      body ≠ [] → CutBehindHeader limit (whole ++ header) (body ++ rest)

/-- What is reported at the end of a stream. -/
structure ReportsEnd (limit : Nat) (octets : Bytes) : Prop where
  noFrame : ∀ frame, atEnd limit octets ≠ .ok (some frame)
  /-- A clean end is reported just where the octets are whole frames, with nothing behind them or
  the header of a payload of which nothing has come. -/
  clean : atEnd limit octets = .ok none ↔
    ∃ whole last frames, octets = whole ++ last ∧ Tiles limit whole frames ∧ Unnoticed limit last
  /-- In every other case octets are left over. -/
  otherwise : atEnd limit octets ≠ .ok none → atEnd limit octets = .error leftOver
  /-- Of whole frames that are cut within a frame, the end goes unreported just where they are cut
  between a header and its payload. -/
  truncated : ∀ more frames, Tiles limit (octets ++ more) frames →
    (∀ first, ¬ Tiles limit octets first) →
    (atEnd limit octets = .ok none ↔ CutBehindHeader limit octets more)

/-- What comes behind a header in whole frames begins with its payload. -/
theorem length_le_of_tiles {whole header : Bytes} {first frames : List InboundFrame}
    {head : FrameHeader} (hfirst : Tiles limit whole first) (hheads : Heads limit header head [])
    (h : Tiles limit (whole ++ header ++ more) frames) : head.length ≤ more.length := by
  by_contra hshort
  have hdrain := drain_tiles h
  have hdecode := decode_of_heads (hheads.append more) (by simpa using hshort)
  rw [List.append_assoc, drain_tiles_append hfirst,
    drain_of_nothing (congrArg Decoded.result hdecode), hdecode] at hdrain
  cases congrArg (·.decoder.awaiting) hdrain

/-- Octets that end without an error are reported as left over, unless all were taken: as whole
frames, or as a header of which the payload is missing. -/
theorem reports_end (h : ((new limit).drain octets).error = none) : ReportsEnd limit octets := by
  have hclean : atEnd limit octets = .ok none ↔
      ∃ whole last frames, octets = whole ++ last ∧ Tiles limit whole frames ∧
        Unnoticed limit last := by
    rw [← rest_eq_nil_iff h, atEnd_eq h]
    split <;> simp_all
  refine ⟨?_, hclean, ?_, ?_⟩
  · intro frame
    rw [atEnd_eq h]
    split <;> exact nofun
  · rw [atEnd_eq h]
    split
    · exact fun hother => absurd rfl hother
    · exact fun _ => rfl
  · intro more frames htiles hwithin
    rw [hclean]
    constructor
    · rintro ⟨whole, last, first, rfl, hfirst, hlast⟩
      cases hlast with
      | nothing =>
        rw [List.append_nil] at hwithin
        exact absurd hfirst (hwithin first)
      | @header _ head hheads hpos =>
        have hlong := length_le_of_tiles hfirst hheads htiles
        rw [← List.take_append_drop head.length more]
        have hlength : (more.take head.length).length = head.length := by
          rw [List.length_take]
          omega
        exact .cut hfirst hheads hlength (List.ne_nil_of_length_pos (by omega))
    · rintro @⟨whole, header, body, rest, first, head, hfirst, hheads, hlength, hbody⟩
      have hpos := List.length_pos_iff.mpr hbody
      exact ⟨whole, header, first, rfl, hfirst, .header hheads (by omega)⟩

/-- A Ping and the header of a text of two octets: the end is clean, although the text is missing.
With its first octet there, it is not. -/
theorem reports_end_half :
    let cut : Bytes := [0x89, 0x80, 1, 2, 3, 4, 0x81, 0x82, 1, 2, 3, 4]
    ((new 0).drain cut).error = none ∧ atEnd 0 cut = .ok none ∧
      ((new 0).drain (cut ++ [5])).error = none ∧ atEnd 0 (cut ++ [5]) = .error leftOver := by
  intro cut
  have hcut : ((new 0).drain cut).error = none := by decide +kernel
  have hmore : ((new 0).drain (cut ++ [5])).error = none := by decide +kernel
  have hping : Tiles 0 [0x89, 0x80, 1, 2, 3, 4] [⟨.ping, []⟩] :=
    .cons (decode_new_frame_iff.mp (by decide +kernel)) .nil
  have hheads : Heads 0 [0x81, 0x82, 1, 2, 3, 4] ⟨.text, ⟨1, 2, 3, 4⟩, 2⟩ [] :=
    readHeader_eq_header_iff.mp (by decide +kernel)
  have hclean := (reports_end hcut).clean.mpr
    ⟨_, _, _, rfl, hping, .header hheads (by decide)⟩
  exact ⟨hcut, hclean, hmore, (reports_end hmore).otherwise (by decide +kernel)⟩

end Decoder

end WebSocket
