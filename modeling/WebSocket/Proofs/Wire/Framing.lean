import WebSocket.Proofs.Wire.Chunks
import WebSocket.Proofs.Wire.Headers

/-!
# The grammar of a client's frames

A header of a client is

    0x80 | opcode,  0x80 | marker,  extension,  key

where marker and extension write the length of the payload in one of the three forms, of which any
that holds it will do; a frame is a header and its payload under the key.  Seven rules say what is
wrong with octets that begin no frame, each once the octets that it looks at are there, and the
first rule broken gives the error:

    Begins limit input frame rest                                       (the grammar)
    firstViolation? limit input                                         (the rules)
    Judges limit input                                  (decode_new_iff_grammar)

A decoder waits for two octets before it judges the first, and for a whole length before it judges
any part of it (`silent_while_doomed`).  Whole frames (`Tiles`) it gives one after another:

    Tiles limit whole frames → (new limit).drain whole = ⟨frames, none, new limit, []⟩
                                                                              (drain_tiles)
-/

namespace WebSocket

/-! ## The grammar -/

/-- The input begins with the header of a client's frame, and `rest` comes after the key. -/
inductive Heads (limit : Nat) : Bytes → FrameHeader → Bytes → Prop where
  | header {opcode : Opcode} {form : LengthForm} {length : Nat} {key : MaskKey} {rest : Bytes}
    (supported : opcode ∈ Opcode.supported) (holds : form.Holds length)
    (top : length < 2 ^ 63) (within : length ≤ max limit 125)
    (control : opcode.isControl → length ≤ 125) :
    Heads limit
      ((0x80 ||| opcode.bits) :: (0x80 ||| form.marker length) ::
        (form.extension length ++ (key.toBytes ++ rest)))
      ⟨opcode, key, length⟩ rest

/-- The input begins with a client's frame, whose payload is under the key, and `rest` comes
after it. -/
inductive Begins (limit : Nat) : Bytes → InboundFrame → Bytes → Prop where
  | frame {input : Bytes} {opcode : Opcode} {key : MaskKey} {body rest : Bytes}
    (header : Heads limit input ⟨opcode, key, body.length⟩ (body ++ rest)) :
    Begins limit input ⟨opcode, body.mapIdx fun i octet => octet ^^^ key.octet i⟩ rest

theorem Heads.eq {limit : Nat} {input rest : Bytes} {head : FrameHeader}
    (h : Heads limit input head rest) :
    head.opcode ∈ Opcode.supported ∧ head.length < 2 ^ 63 ∧
      ∃ form : LengthForm, form.Holds head.length ∧
        input = (0x80 ||| head.opcode.bits) :: (0x80 ||| form.marker head.length) ::
          (form.extension head.length ++ (head.key.toBytes ++ rest)) := by
  obtain @⟨_, form, _, _, _, hopcode, hholds, htop, -, -⟩ := h
  exact ⟨hopcode, htop, form, hholds, rfl⟩

/-- Headers are read off as the grammar has them. -/
theorem readHeader_eq_header_iff {limit : Nat} {input rest : Bytes} {head : FrameHeader} :
    readHeader (clampPayloadLimit limit) input = .ok (some (head, rest)) ↔
      Heads limit input head rest := by
  constructor
  · intro h
    match input with
    | [] | [_] => cases h
    | first :: second :: octets =>
      simp only [readHeader] at h
      cases hfixed : fixedViolation? first second with
      | some error => rw [hfixed] at h; cases h
      | none =>
        rw [hfixed] at h
        obtain ⟨⟨hopcode, hfirst⟩, hmask⟩ := fixedViolation?_eq_none_iff.mp hfixed
        cases hdeclared : declaredLength? second octets with
        | none => rw [hdeclared] at h; cases h
        | some declared =>
          obtain ⟨length, octets'⟩ := declared
          rw [hdeclared] at h
          obtain ⟨form, hholds, hmarker, rfl⟩ := declaredLength?_eq_some_iff.mp hdeclared
          dsimp only at h
          cases hlength :
              lengthViolation? (clampPayloadLimit limit) (Opcode.ofBits first) length with
          | some error => rw [hlength] at h; cases h
          | none =>
            obtain ⟨htop, hcontrol, hwithin⟩ := lengthViolation?_eq_none_iff.mp hlength
            rw [hlength] at h
            dsimp only at h
            split at h
            · rename_i a b c d octets'
              cases h
              have hsecond : second = 0x80 ||| form.marker length := by
                rw [← hmarker]
                exact eq_top_or_low hmask
              rw [hsecond]
              have hheader := @Heads.header limit _ _ _ ⟨a, b, c, d⟩ rest hopcode hholds htop
                hwithin hcontrol
              rwa [← hfirst] at hheader
            · cases h
  · rintro @⟨opcode, form, length, key, rest, hopcode, hholds, htop, hwithin, hcontrol⟩
    have hbits : Opcode.ofBits (0x80 ||| opcode.bits) = opcode := Opcode.ofBits_top hopcode
    have hfixed : fixedViolation? (0x80 ||| opcode.bits) (0x80 ||| form.marker length) = none :=
      fixedViolation?_eq_none_iff.mpr ⟨⟨hbits.symm ▸ hopcode, by rw [hbits]⟩, top_or_ne_zero _⟩
    have hdeclared : declaredLength? (0x80 ||| form.marker length)
        (form.extension length ++ (key.toBytes ++ rest)) = some (length, key.toBytes ++ rest) :=
      declaredLength?_eq_some_iff.mpr ⟨form, hholds, LengthForm.low_marker hholds, rfl⟩
    have hlength : lengthViolation? (clampPayloadLimit limit) opcode length = none :=
      lengthViolation?_eq_none_iff.mpr ⟨htop, hcontrol, hwithin⟩
    simp only [readHeader, hfixed, hdeclared, hbits, hlength]
    rfl

/-! ## The rules -/

/-- The length that the header at the front declares, once all of its octets are there. -/
def declared? : Bytes → Option Nat
  | _ :: second :: octets =>
    match second &&& 0x7F with
    | 126 => if octets.length < 2 then none else some (BigEndian.decode (octets.take 2))
    | 127 => if octets.length < 8 then none else some (BigEndian.decode (octets.take 8))
    | short => some short.toNat
  | _ => none

/-- The rules on headers. -/
inductive FrameRule where
  /-- No reserved bit is set. -/
  | reservedBits
  /-- The opcode is supported. -/
  | opcode
  /-- The message is whole. -/
  | fin
  /-- The payload is masked. -/
  | mask
  /-- The top bit of a length of eight octets is not set. -/
  | topBit
  /-- A control frame carries little. -/
  | controlSize
  /-- The payload is within the limit. -/
  | limit
  deriving DecidableEq, Repr

namespace FrameRule

/-- The rules in the order in which they are checked. -/
def order : List FrameRule := [reservedBits, opcode, fin, mask, topBit, controlSize, limit]

/-- The error for octets that break the rule, if those that it looks at are there. -/
def violation? (most : Nat) (octets : Bytes) (rule : FrameRule) : Option FrameError :=
  match octets with
  | first :: second :: _ =>
    match rule with
    | reservedBits =>
      if first &&& 0x70 ≠ 0 then some (.reservedBits (first &&& 0x70)) else none
    | opcode =>
      if Opcode.ofBits first ∉ Opcode.supported then
        some (.unsupportedOpcode (Opcode.ofBits first)) else none
    | fin => if first &&& 0x80 = 0 then some .fragmented else none
    | mask => if second &&& 0x80 = 0 then some .unmasked else none
    | topBit => (declared? octets).bind fun length =>
      if 2 ^ 63 ≤ length then some .invalidLength else none
    | controlSize => (declared? octets).bind fun length =>
      if (Opcode.ofBits first).isControl ∧ 125 < length then some (.oversizedControl length)
      else none
    | limit => (declared? octets).bind fun length =>
      if most < length then some (.oversizedPayload length most) else none
  | _ => none

end FrameRule

/-- The error for the first rule broken, for payloads of up to `limit` octets. -/
def firstViolation? (limit : Nat) (octets : Bytes) : Option FrameError :=
  FrameRule.order.findSome? (FrameRule.violation? (max limit 125) octets)

theorem declared?_cons (first second : UInt8) (octets : Bytes) :
    declared? (first :: second :: octets) = (declaredLength? second octets).map Prod.fst := by
  have htake (width : Nat) : takeExactly width octets =
      if octets.length < width then none else some (octets.take width, octets.drop width) := by
    rw [takeExactly_eq, List.length_take]
    split <;> split <;> first | rfl | omega
  simp only [declared?, declaredLength?, htake]
  split
  · rename_i hmedium
    rw [if_pos hmedium]
    split <;> rfl
  · rename_i hlong
    have hmedium : second &&& 0x7F ≠ 126 := by
      rw [hlong]
      decide
    simp only [if_neg hmedium, if_pos hlong]
    split <;> rfl
  · rename_i hmedium hlong
    rw [if_neg hmedium, if_neg hlong]
    rfl

theorem findSome?_fixed (most : Nat) (first second : UInt8) (octets : Bytes) :
    [FrameRule.reservedBits, .opcode, .fin, .mask].findSome?
        (FrameRule.violation? most (first :: second :: octets)) = fixedViolation? first second := by
  have hsupported : (!(Opcode.ofBits first).isSupported) = true ↔
      Opcode.ofBits first ∉ Opcode.supported := by
    rw [← Opcode.isSupported_iff_mem, Bool.not_eq_true', Bool.not_eq_true]
  simp only [List.findSome?_cons, List.findSome?_nil, FrameRule.violation?, fixedViolation?,
    hsupported]
  split_ifs <;> rfl

theorem findSome?_length (most : Nat) (first second : UInt8) (octets : Bytes) :
    [FrameRule.topBit, .controlSize, .limit].findSome?
        (FrameRule.violation? most (first :: second :: octets)) =
      (declared? (first :: second :: octets)).bind
        (lengthViolation? most (Opcode.ofBits first)) := by
  simp only [List.findSome?_cons, List.findSome?_nil, FrameRule.violation?]
  cases declared? (first :: second :: octets) with
  | none => rfl
  | some length =>
    have hcontrol :
        ((Opcode.ofBits first).isControl && decide (maxControlPayload < length)) = true ↔
        (Opcode.ofBits first).isControl ∧ 125 < length := by
      rw [Bool.and_eq_true, decide_eq_true_eq, maxControlPayload]
    simp only [Option.bind_some, lengthViolation?, hcontrol, Nat.reducePow]
    split_ifs <;> rfl

theorem firstViolation?_cons (limit : Nat) (first second : UInt8) (octets : Bytes) :
    firstViolation? limit (first :: second :: octets) =
      (fixedViolation? first second).or
        ((declared? (first :: second :: octets)).bind
          (lengthViolation? (clampPayloadLimit limit) (Opcode.ofBits first))) := by
  rw [← findSome?_length, ← findSome?_fixed (clampPayloadLimit limit) first second octets,
    ← List.findSome?_append]
  rfl

theorem readHeader_eq_error_iff {limit : Nat} {input : Bytes} {error : FrameError} :
    readHeader (clampPayloadLimit limit) input = .error error ↔
      firstViolation? limit input = some error := by
  match input with
  | [] | [_] => exact ⟨nofun, nofun⟩
  | first :: second :: octets =>
    rw [firstViolation?_cons, declared?_cons]
    simp only [readHeader]
    cases fixedViolation? first second with
    | some error => simp
    | none =>
      cases declaredLength? second octets with
      | none => simp
      | some declared =>
        obtain ⟨length, octets⟩ := declared
        simp only [Option.none_or, Option.map_some, Option.bind_some]
        cases lengthViolation? (clampPayloadLimit limit) (Opcode.ofBits first) length with
        | some error => simp
        | none =>
          dsimp only
          split <;> simp

/-! ## Judging octets -/

namespace Decoder

theorem decodePayload_result (decoder : Decoder) (head : FrameHeader) (input : Bytes)
    (error : FrameError) : (decoder.decodePayload head input).result ≠ .error error := by
  unfold decodePayload
  split <;> exact nofun

/-- A new decoder reads a header and then its payload. -/
theorem decode_new (limit : Nat) (input : Bytes) :
    (new limit).decode input =
      match readHeader (clampPayloadLimit limit) input with
      | .error error => ⟨.error error, new limit, input⟩
      | .ok none => ⟨.ok none, new limit, input⟩
      | .ok (some (head, rest)) => (new limit).decodePayload head rest := rfl

/-- A new decoder gives the error of the first rule broken. -/
theorem decode_new_error_iff {limit : Nat} {input : Bytes} {error : FrameError} :
    ((new limit).decode input).result = .error error ↔
      firstViolation? limit input = some error := by
  rw [← readHeader_eq_error_iff, decode_new]
  cases readHeader (clampPayloadLimit limit) input with
  | error error => simp
  | ok header =>
    cases header with
    | none => simp
    | some header =>
      simp only [reduceCtorEq, iff_false]
      exact decodePayload_result (new limit) header.1 header.2 error

theorem decodePayload_eq_frame_iff {decoder : Decoder} {head : FrameHeader} {input rest : Bytes}
    {frame : InboundFrame} :
    (decoder.decodePayload head input).result = .ok (some frame) ∧
        (decoder.decodePayload head input).rest = rest ↔
      ∃ body, input = body ++ rest ∧ body.length = head.length ∧
        frame = ⟨head.opcode, head.key.apply body⟩ := by
  unfold decodePayload
  cases htaken : takeExactly head.length input with
  | none =>
    simp only [Except.ok.injEq, reduceCtorEq, false_and, false_iff, not_exists, not_and]
    rintro body rfl hlength
    rw [takeExactly_eq_some_iff.mpr ⟨rfl, hlength⟩] at htaken
    cases htaken
  | some taken =>
    obtain ⟨body, rest'⟩ := taken
    obtain ⟨rfl, hlength⟩ := takeExactly_eq_some_iff.mp htaken
    constructor
    · rintro ⟨hframe, hrest⟩
      cases hframe
      cases hrest
      exact ⟨body, rfl, hlength, rfl⟩
    · rintro ⟨body', hsame, hlength', rfl⟩
      obtain ⟨rfl, rfl⟩ := List.append_inj hsame (hlength.trans hlength'.symm)
      exact ⟨rfl, rfl⟩

/-- A new decoder gives the frame that the grammar sees at the front. -/
theorem decode_new_frame_iff {limit : Nat} {input rest : Bytes} {frame : InboundFrame} :
    ((new limit).decode input).result = .ok (some frame) ∧
        ((new limit).decode input).rest = rest ↔ Begins limit input frame rest := by
  rw [decode_new]
  constructor
  · cases hheader : readHeader (clampPayloadLimit limit) input with
    | error error => exact nofun
    | ok header =>
      cases header with
      | none => exact nofun
      | some header =>
        obtain ⟨⟨opcode, key, length⟩, input'⟩ := header
        intro hframe
        obtain ⟨body, rfl, rfl, rfl⟩ := decodePayload_eq_frame_iff.mp hframe
        rw [MaskKey.apply_eq_mapIdx]
        exact .frame (readHeader_eq_header_iff.mp hheader)
  · rintro ⟨hheader⟩
    rw [readHeader_eq_header_iff.mpr hheader]
    exact decodePayload_eq_frame_iff.mpr ⟨_, rfl, rfl, by rw [MaskKey.apply_eq_mapIdx]⟩

/-- A new decoder that gave a frame is new again. -/
theorem decode_new_decoder {limit : Nat} {input : Bytes} {frame : InboundFrame}
    (h : ((new limit).decode input).result = .ok (some frame)) :
    ((new limit).decode input).decoder = new limit := by
  rw [decode_new] at h ⊢
  cases hheader : readHeader (clampPayloadLimit limit) input with
  | error error => rfl
  | ok header =>
    cases header with
    | none => rfl
    | some header =>
      rw [hheader] at h
      dsimp only [decodePayload] at h ⊢
      cases htaken : takeExactly header.1.length header.2 with
      | none => rw [htaken] at h; cases h
      | some taken => rfl

/-- Octets that break a rule begin no frame, whatever comes after them. -/
theorem not_begins_append {limit : Nat} {input : Bytes} {error : FrameError}
    (h : ((new limit).decode input).result = .error error) (more : Bytes) (frame : InboundFrame)
    (rest : Bytes) : ¬ Begins limit (input ++ more) frame rest := by
  intro hbegins
  have hframe := (decode_new_frame_iff.mpr hbegins).1
  rw [decode_append] at hframe
  simp only [Decoded.resume, h] at hframe
  cases hframe

/-- Enough octets more make a key and a body of any length. -/
theorem exists_key_body (octets : Bytes) (length : Nat) :
    ∃ (more : Bytes) (key : MaskKey) (body rest : Bytes),
      octets ++ more = key.toBytes ++ (body ++ rest) ∧ body.length = length := by
  have hlength : 4 + length ≤ (octets ++ List.replicate (4 + length) 0).length := by
    rw [List.length_append, List.length_replicate]
    omega
  match hall : octets ++ List.replicate (4 + length) 0 with
  | [] | [_] | [_, _] | [_, _, _] =>
    rw [hall] at hlength
    simp only [List.length_cons, List.length_nil] at hlength
    omega
  | a :: b :: c :: d :: octets' =>
    rw [hall] at hlength
    simp only [List.length_cons] at hlength
    refine ⟨List.replicate (4 + length) 0, ⟨a, b, c, d⟩, octets'.take length,
      octets'.drop length, ?_, ?_⟩
    · rw [hall, List.take_append_drop]
      rfl
    · rw [List.length_take]
      omega

/-- Octets that declare a length and break no rule can be made into a frame. -/
theorem begins_append {limit length : Nat} {input : Bytes} (hlength : declared? input = some length)
    (h : firstViolation? limit input = none) :
    ∃ more frame rest, Begins limit (input ++ more) frame rest := by
  match input with
  | [] | [_] => cases hlength
  | first :: second :: octets =>
    rw [firstViolation?_cons, hlength, Option.or_eq_none_iff, Option.bind_some] at h
    rw [declared?_cons] at hlength
    obtain ⟨⟨length', octets'⟩, hdeclared, hsame⟩ := Option.map_eq_some_iff.mp hlength
    obtain rfl : length' = length := hsame
    obtain ⟨form, hholds, hmarker, rfl⟩ := declaredLength?_eq_some_iff.mp hdeclared
    obtain ⟨⟨hopcode, hfirst⟩, hmask⟩ := fixedViolation?_eq_none_iff.mp h.1
    obtain ⟨htop, hcontrol, hwithin⟩ := lengthViolation?_eq_none_iff.mp h.2
    obtain ⟨more, key, body, rest, hmore, rfl⟩ := exists_key_body octets' length'
    have hheader := @Heads.header limit _ _ _ key (body ++ rest) hopcode hholds htop hwithin
      hcontrol
    rw [← hfirst, ← hmarker, ← eq_top_or_low hmask, ← hmore, ← List.append_assoc] at hheader
    exact ⟨more, _, rest, .frame hheader⟩

end Decoder

/-- A new decoder judges some octets by the grammar and the rules. -/
structure Judges (limit : Nat) (input : Bytes) : Prop where
  /-- It gives a frame and leaves the rest just where the grammar sees a frame and the rest. -/
  frame : ∀ frame rest, (((Decoder.new limit).decode input).result = .ok (some frame) ∧
    ((Decoder.new limit).decode input).rest = rest) ↔ Begins limit input frame rest
  /-- It gives an error just where a rule is broken, that of the first one. -/
  error : ∀ error, ((Decoder.new limit).decode input).result = .error error ↔
    firstViolation? limit input = some error
  /-- In every other case it gives nothing. -/
  nothing : ((Decoder.new limit).decode input).result = .ok none ↔
    (∀ frame rest, ¬ Begins limit input frame rest) ∧ firstViolation? limit input = none
  /-- After a frame it is between frames again. -/
  again : ∀ frame rest, Begins limit input frame rest →
    ((Decoder.new limit).decode input).decoder = .new limit
  /-- Where a rule is broken no frame begins, whatever comes after the octets. -/
  doomed : ∀ error, firstViolation? limit input = some error →
    ∀ more frame rest, ¬ Begins limit (input ++ more) frame rest
  /-- Where none is broken although the length is there, the octets can be made into a frame. -/
  hopeful : ∀ length, declared? input = some length → firstViolation? limit input = none →
    ∃ more frame rest, Begins limit (input ++ more) frame rest

/-- A new decoder accepts what the grammar accepts and refuses what the rules refuse. -/
theorem decode_new_iff_grammar (limit : Nat) (input : Bytes) : Judges limit input where
  frame _ _ := Decoder.decode_new_frame_iff
  error _ := Decoder.decode_new_error_iff
  nothing := by
    constructor
    · intro hnothing
      constructor
      · intro frame rest hbegins
        have hframe := (Decoder.decode_new_frame_iff.mpr hbegins).1
        rw [hnothing] at hframe
        cases hframe
      · rw [Option.eq_none_iff_forall_ne_some]
        intro error herror
        rw [← Decoder.decode_new_error_iff, hnothing] at herror
        cases herror
    · rintro ⟨hframe, herror⟩
      match hresult : ((Decoder.new limit).decode input).result with
      | .ok none => rfl
      | .ok (some frame) =>
        exact absurd (Decoder.decode_new_frame_iff.mp ⟨hresult, rfl⟩) (hframe frame _)
      | .error error =>
        rw [Decoder.decode_new_error_iff.mp hresult] at herror
        cases herror
  again _ _ hbegins := Decoder.decode_new_decoder (Decoder.decode_new_frame_iff.mpr hbegins).1
  doomed _ herror := Decoder.not_begins_append (Decoder.decode_new_error_iff.mpr herror)
  hopeful _ := Decoder.begins_append

/-- A first octet alone, and a length that is not all there, can be past help without an error. -/
theorem silent_while_doomed :
    ¬ ((∃ error, ((Decoder.new 125).decode [0xF1]).result = .error error) ↔
      ∀ more frame rest, ¬ Begins 125 ([0xF1] ++ more) frame rest) ∧
    ¬ ((∃ error, ((Decoder.new 125).decode [0x82, 0xFF, 0x80]).result = .error error) ↔
      ∀ more frame rest, ¬ Begins 125 ([0x82, 0xFF, 0x80] ++ more) frame rest) := by
  have silent {input : Bytes} (h : ((Decoder.new 125).decode input).result = .ok none) :
      ¬ ∃ error, ((Decoder.new 125).decode input).result = .error error := by
    rintro ⟨error, herror⟩
    rw [h] at herror
    cases herror
  constructor
  · intro h
    refine silent rfl (h.mpr ?_)
    rintro more _ rest @⟨opcode, key, body, _, hheader⟩
    obtain ⟨hopcode, -, form, -, hinput⟩ := hheader.eq
    have hfirst : ∀ opcode ∈ Opcode.supported, 0xF1 ≠ 0x80 ||| opcode.bits := by decide
    exact hfirst opcode hopcode (List.cons.inj hinput).1
  · intro h
    refine silent rfl (h.mpr ?_)
    rintro more _ rest @⟨opcode, key, body, _, hheader⟩
    obtain ⟨-, htop, form, hholds, hinput⟩ := hheader.eq
    obtain ⟨hsecond, hoctets⟩ := List.cons.inj (List.cons.inj hinput).2
    have hmarker : 127 = form.marker body.length := by
      rw [← LengthForm.low_marker hholds, ← hsecond]
      decide
    cases form with
    | inline =>
      have hshort : body.length ≤ 125 := hholds
      have hnumber : 127 = body.length % 256 := congrArg UInt8.toNat hmarker
      omega
    | medium => exact absurd (show (127 : UInt8) = 126 from hmarker) (by decide)
    | long =>
      have hdigit : 128 = body.length / BigEndian.span 7 % 256 :=
        congrArg UInt8.toNat (List.cons.inj hoctets).1
      have hspan : BigEndian.span 7 = 2 ^ 56 := rfl
      rw [hspan] at hdigit
      simp only at htop
      omega

/-! ## Frames by themselves -/

/-- A header is told by its own octets. -/
theorem readHeader_split {limit : Nat} {input rest : Bytes} {head : FrameHeader}
    (h : readHeader limit input = .ok (some (head, rest))) :
    ∃ front, input = front ++ rest ∧ readHeader limit front = .ok (some (head, [])) := by
  match input with
  | [] | [_] => cases h
  | first :: second :: octets =>
    simp only [readHeader] at h
    cases hfixed : fixedViolation? first second with
    | some error => rw [hfixed] at h; cases h
    | none =>
      rw [hfixed] at h
      cases hdeclared : declaredLength? second octets with
      | none => rw [hdeclared] at h; cases h
      | some declared =>
        obtain ⟨length, octets'⟩ := declared
        rw [hdeclared] at h
        obtain ⟨form, hholds, hmarker, rfl⟩ := declaredLength?_eq_some_iff.mp hdeclared
        dsimp only at h
        cases hlength : lengthViolation? limit (Opcode.ofBits first) length with
        | some error => rw [hlength] at h; cases h
        | none =>
          rw [hlength] at h
          dsimp only at h
          split at h
          · rename_i a b c d octets'
            cases h
            refine ⟨first :: second :: (form.extension length ++ [a, b, c, d]), by simp, ?_⟩
            have hfront : declaredLength? second (form.extension length ++ [a, b, c, d]) =
                some (length, [a, b, c, d]) :=
              declaredLength?_eq_some_iff.mpr ⟨form, hholds, hmarker, rfl⟩
            simp only [readHeader, hfixed, hfront, hlength]
          · cases h

namespace Decoder

variable {decoder : Decoder} {input : Bytes} {frame : InboundFrame}

theorem decodePayload_split {head : FrameHeader}
    (h : (decoder.decodePayload head input).result = .ok (some frame)) :
    ∃ taken, input = taken ++ (decoder.decodePayload head input).rest ∧
      decoder.decodePayload head taken =
        ⟨.ok (some frame), (decoder.decodePayload head input).decoder, []⟩ := by
  simp only [decodePayload] at h ⊢
  cases htaken : takeExactly head.length input with
  | none => rw [htaken] at h; cases h
  | some taken =>
    obtain ⟨body, rest⟩ := taken
    rw [htaken] at h
    cases h
    obtain ⟨rfl, hlength⟩ := takeExactly_eq_some_iff.mp htaken
    have hbody : takeExactly head.length body = some (body, []) :=
      takeExactly_eq_some_iff.mpr ⟨(List.append_nil body).symm, hlength⟩
    exact ⟨body, rfl, by rw [hbody]⟩

/-- A frame is told by its own octets. -/
theorem decode_split (h : (decoder.decode input).result = .ok (some frame)) :
    ∃ taken, input = taken ++ (decoder.decode input).rest ∧
      decoder.decode taken = ⟨.ok (some frame), (decoder.decode input).decoder, []⟩ := by
  unfold decode at h ⊢
  cases hawaiting : decoder.awaiting with
  | payload head =>
    rw [hawaiting] at h
    exact decodePayload_split h
  | header =>
    rw [hawaiting] at h
    dsimp only at h ⊢
    cases hheader : readHeader decoder.limit input with
    | error error => rw [hheader] at h; cases h
    | ok header =>
      cases header with
      | none => rw [hheader] at h; cases h
      | some header =>
        obtain ⟨head, rest⟩ := header
        rw [hheader] at h
        obtain ⟨front, rfl, hfront⟩ := readHeader_split hheader
        obtain ⟨body, hbody, hpayload⟩ := decodePayload_split h
        refine ⟨front ++ body, by rw [List.append_assoc, ← hbody], ?_⟩
        rw [readHeader_append, hfront]
        exact hpayload

/-- All octets of a frame and no others give the frame. -/
theorem drain_split (h : (decoder.decode input).result = .ok (some frame)) :
    ∃ taken, input = taken ++ (decoder.decode input).rest ∧
      decoder.drain taken = ⟨[frame], none, (decoder.decode input).decoder, []⟩ := by
  obtain ⟨taken, hinput, htaken⟩ := decode_split h
  refine ⟨taken, hinput, ?_⟩
  rw [drain_eq, htaken]
  simp only [drain_nil (decode_frame h).1]

/-- A new decoder gives frames with supported opcodes only. -/
theorem drain_supported {limit : Nat} (h : decoder = new limit) :
    ∀ frame ∈ (decoder.drain input).frames, frame.opcode ∈ Opcode.supported := by
  fun_induction drain decoder input with
  | case1 | case2 =>
    intro frame hmem
    cases hmem
  | case3 decoder input frame hframe later ih =>
    subst h
    have hbegins := decode_new_frame_iff.mp ⟨hframe, rfl⟩
    have hsupported : frame.opcode ∈ Opcode.supported := by
      obtain ⟨hheader⟩ := hbegins
      exact hheader.eq.1
    exact List.forall_mem_cons.mpr ⟨hsupported, ih (decode_new_decoder hframe)⟩

end Decoder

/-! ## Whole frames -/

/-- The octets are whole frames, one after another. -/
inductive Tiles (limit : Nat) : Bytes → List InboundFrame → Prop
  | nil : Tiles limit [] []
  | cons {octets rest : Bytes} {frame : InboundFrame} {frames : List InboundFrame} :
      Begins limit octets frame rest → Tiles limit rest frames →
      Tiles limit octets (frame :: frames)

variable {limit : Nat} {octets rest : Bytes}

theorem Heads.append {head : FrameHeader} (h : Heads limit octets head rest) (more : Bytes) :
    Heads limit (octets ++ more) head (rest ++ more) := by
  obtain @⟨opcode, form, length, key, rest, hopcode, hholds, htop, hwithin, hcontrol⟩ := h
  simp only [List.cons_append, List.append_assoc]
  exact .header hopcode hholds htop hwithin hcontrol

theorem Begins.append {frame : InboundFrame} (h : Begins limit octets frame rest) (more : Bytes) :
    Begins limit (octets ++ more) frame (rest ++ more) := by
  obtain ⟨hheader⟩ := h
  have hmore := hheader.append more
  rw [List.append_assoc] at hmore
  exact .frame hmore

namespace Decoder

/-- A decoder between frames gives whole frames one after another, and then what comes of the octets
behind them. -/
theorem drain_tiles_append {whole : Bytes} {frames : List InboundFrame}
    (h : Tiles limit whole frames) (last : Bytes) :
    (new limit).drain (whole ++ last) =
      { (new limit).drain last with frames := frames ++ ((new limit).drain last).frames } := by
  induction h with
  | nil => rfl
  | cons hbegins _ ih =>
    obtain ⟨hframe, hrest⟩ := decode_new_frame_iff.mpr (hbegins.append last)
    rw [drain_of_frame hframe, decode_new_decoder hframe, hrest, ih]
    rfl

theorem drain_tiles {whole : Bytes} {frames : List InboundFrame} (h : Tiles limit whole frames) :
    (new limit).drain whole = ⟨frames, none, new limit, []⟩ := by
  have hdrain := drain_tiles_append h []
  rw [List.append_nil, drain_nil rfl] at hdrain
  rw [hdrain, List.append_nil]

/-- All octets are whole frames and then octets that begin none. -/
theorem exists_tiles (limit : Nat) (octets : Bytes) :
    ∃ whole last, octets = whole ++ last ∧
      Tiles limit whole ((new limit).drain octets).frames ∧
      ∀ frame, ((new limit).decode last).result ≠ .ok (some frame) := by
  generalize hnew : new limit = decoder
  fun_induction drain decoder octets with
  | case1 decoder input error herror =>
    exact ⟨[], input, rfl, .nil, fun frame hframe => by rw [herror] at hframe; cases hframe⟩
  | case2 decoder input hnothing =>
    exact ⟨[], input, rfl, .nil, fun frame hframe => by rw [hnothing] at hframe; cases hframe⟩
  | case3 decoder input frame hframe later ih =>
    subst hnew
    have hagain := decode_new_decoder hframe
    obtain ⟨whole, last, hrest, htiles, hlast⟩ := ih hagain.symm
    obtain ⟨taken, hinput, htaken⟩ := decode_split hframe
    have hbegins : Begins limit taken frame [] :=
      decode_new_frame_iff.mp (by rw [htaken]; exact ⟨rfl, rfl⟩)
    refine ⟨taken ++ whole, last, ?_, .cons (hbegins.append whole) htiles, ?_⟩
    · rw [List.append_assoc, ← hrest]
      exact hinput
    · rw [hagain] at hlast
      exact hlast

end Decoder

end WebSocket
