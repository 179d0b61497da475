import WebSocket.Proofs.Peer.Reading
import WebSocket.Proofs.Wire.RoundTrip

/-!
# What a server announces to a client

Whatever a server sends, the octets that a client has received are a masked frame, or part of a
header, or a header and what comes behind it.  The header announces the length of a payload, and the
server may write any length there, also one that no payload has:

    splitFrame (a.header ++ body) =
      splitPayload (.ofBits a.first) a.header.length a.length body              (splitFrame_header)

The client takes the payload off once it is all there, and leaves the octets as they are until then.
But first it adds up where the frame ends, and the sum has no address if the length is one of the
last ten below `2 ^ 64`.  Then the client panics (`splitFrame_eq_panicked_iff`).
-/

namespace WebSocket.Peer

/-! ## Headers -/

structure Announcement where
  first : UInt8
  form : LengthForm
  length : Nat
  holds : form.Holds length

def Announcement.header (a : Announcement) : Bytes :=
  a.first :: a.form.marker a.length :: a.form.extension a.length

/-- The octets begin with the header of a masked frame. -/
def Masked : Bytes → Prop
  | _ :: second :: _ => second &&& 0x80 ≠ 0
  | _ => False

/-- Why a client refuses a masked frame. -/
def maskedFrame : Fault := ⟨.invalidData, some "server sent a masked frame"⟩

theorem splitFrame_masked {octets : Bytes} (h : Masked octets) :
    splitFrame octets = .refused maskedFrame := by
  match octets with
  | [] | [_] => exact h.elim
  | first :: second :: rest => exact if_pos h

/-- A client reads a length as a decoder does. -/
theorem splitFrame_unmasked {first second : UInt8} (h : second &&& 0x80 = 0) (rest : Bytes) :
    splitFrame (first :: second :: rest) =
      (declaredLength? second rest).elim .incomplete fun declared =>
        splitPayload (.ofBits first) (2 + (rest.length - declared.2.length)) declared.1
          declared.2 := by
  have hdigits (width : Nat) (read : Bytes × Bytes → Nat × Bytes)
      (hread : ∀ digits body, read (digits, body) = (BigEndian.decode digits, body)) :
      (if rest.length < width then Split.incomplete
        else splitPayload (.ofBits first) (2 + width) (BigEndian.decode (rest.take width))
          (rest.drop width)) =
        ((takeExactly width rest).map read).elim .incomplete fun declared =>
          splitPayload (.ofBits first) (2 + (rest.length - declared.2.length)) declared.1
            declared.2 := by
    by_cases hshort : rest.length < width
    · rw [takeExactly_eq_none_iff.mpr hshort, if_pos hshort]
      rfl
    · have htaken : takeExactly width rest = some (rest.take width, rest.drop width) :=
        takeExactly_eq_some_iff.mpr ⟨(List.take_append_drop width rest).symm, by
          rw [List.length_take]
          omega⟩
      have hwidth : rest.length - (rest.drop width).length = width := by
        rw [List.length_drop]
        omega
      rw [htaken, if_neg hshort, Option.map_some, hread, Option.elim_some, hwidth]
  simp only [splitFrame, h, ne_eq, not_true_eq_false, if_false, declaredLength?]
  split
  · exact hdigits 2 _ fun _ _ => rfl
  · split
    · exact hdigits 8 _ fun _ _ => rfl
    · rw [Option.elim_some, Nat.sub_self]

theorem low_of_unmasked {octet : UInt8} (h : octet &&& 0x80 = 0) : octet &&& 0x7F = octet := by
  revert h
  exact octet_all (fun octet => octet &&& 0x80 = 0 → octet &&& 0x7F = octet) (by decide +kernel)
    octet

theorem marker_unmasked {form : LengthForm} {length : Nat} (h : form.Holds length) :
    form.marker length &&& 0x80 = 0 := by
  cases form with
  | inline => exact (inline_octet h).1
  | medium => show (126 : UInt8) &&& 0x80 = 0; decide
  | long => show (127 : UInt8) &&& 0x80 = 0; decide

/-- Behind a header the client looks for the payload. -/
theorem splitFrame_header (a : Announcement) (body : Bytes) :
    splitFrame (a.header ++ body) =
      splitPayload (.ofBits a.first) a.header.length a.length body := by
  obtain ⟨first, form, length, hholds⟩ := a
  have hunmasked := marker_unmasked hholds
  have hdeclared : declaredLength? (form.marker length) (form.extension length ++ body) =
      some (length, body) :=
    declaredLength?_eq_some_iff.mpr ⟨form, hholds, low_of_unmasked hunmasked, rfl⟩
  simp only [Announcement.header, List.cons_append]
  rw [splitFrame_unmasked hunmasked, hdeclared, Option.elim_some, List.length_append,
    Nat.add_sub_cancel, Nat.add_comm 2]
  rfl

/-- Octets that are not masked have a header in front, unless part of it is missing. -/
theorem exists_header {octets : Bytes} (h : ¬ Masked octets) :
    (∃ (a : Announcement) (body : Bytes), octets = a.header ++ body) ∨
      splitFrame octets = .incomplete := by
  match octets with
  | [] | [_] => exact .inr rfl
  | first :: second :: rest =>
    have hunmasked : second &&& 0x80 = 0 := Decidable.not_not.mp h
    cases hdeclared : declaredLength? second rest with
    | none =>
      right
      rw [splitFrame_unmasked hunmasked, hdeclared]
      rfl
    | some declared =>
      left
      obtain ⟨length, body⟩ := declared
      obtain ⟨form, hholds, hmarker, rfl⟩ := declaredLength?_eq_some_iff.mp hdeclared
      rw [low_of_unmasked hunmasked] at hmarker
      exact ⟨⟨first, form, length, hholds⟩, body, by rw [hmarker]; rfl⟩

/-! ## Payloads -/

theorem splitPayload_eq_frame_iff {opcode : Opcode} {width length : Nat} {body rest : Bytes}
    {frame : ReceivedFrame} :
    splitPayload opcode width length body = .frame frame rest ↔
      width + length < addressSpace ∧ body = frame.payload ++ rest ∧
        frame.payload.length = length ∧ frame.opcode = opcode := by
  constructor
  · intro h
    unfold splitPayload at h
    split at h
    · cases h
    · split at h
      · cases h
      · cases h
        refine ⟨by omega, (List.take_append_drop length body).symm, ?_, rfl⟩
        rw [List.length_take]
        omega
  · rintro ⟨haddress, rfl, rfl, rfl⟩
    exact splitPayload_of_length haddress rest

theorem splitPayload_eq_incomplete_iff {opcode : Opcode} {width length : Nat} {body : Bytes} :
    splitPayload opcode width length body = .incomplete ↔
      width + length < addressSpace ∧ body.length < length := by
  unfold splitPayload
  split
  · simp only [reduceCtorEq, false_iff]
    omega
  · split
    · simp only [true_iff]
      omega
    · simp only [reduceCtorEq, false_iff]
      omega

theorem splitPayload_ne_refused {opcode : Opcode} {width length : Nat} {body : Bytes}
    {fault : Fault} : splitPayload opcode width length body ≠ .refused fault := by
  unfold splitPayload
  split
  · nofun
  · split <;> nofun

theorem splitPayload_eq_panicked_iff {opcode : Opcode} {width length : Nat} {body : Bytes} :
    splitPayload opcode width length body = .panicked .overflow ↔
      addressSpace ≤ width + length := by
  unfold splitPayload
  split
  · simp only [true_iff]
    assumption
  · split
    · simp only [reduceCtorEq, false_iff]
      omega
    · simp only [reduceCtorEq, false_iff]
      omega

/-! ## All octets -/

variable {octets : Bytes}

theorem splitFrame_eq_frame_iff {frame : ReceivedFrame} {rest : Bytes} :
    splitFrame octets = .frame frame rest ↔
      ∃ a : Announcement, octets = a.header ++ (frame.payload ++ rest) ∧
        frame.opcode = .ofBits a.first ∧ frame.payload.length = a.length ∧
        a.header.length + a.length < addressSpace := by
  constructor
  · intro h
    have hunmasked : ¬ Masked octets := by
      intro hmasked
      rw [splitFrame_masked hmasked] at h
      cases h
    rcases exists_header hunmasked with ⟨a, body, rfl⟩ | hpart
    · rw [splitFrame_header] at h
      obtain ⟨haddress, rfl, hlength, hopcode⟩ := splitPayload_eq_frame_iff.mp h
      exact ⟨a, rfl, hopcode, hlength, haddress⟩
    · rw [hpart] at h
      cases h
  · rintro ⟨a, rfl, hopcode, hlength, haddress⟩
    rw [splitFrame_header]
    exact splitPayload_eq_frame_iff.mpr ⟨haddress, rfl, hlength, hopcode⟩

theorem splitFrame_eq_incomplete_iff :
    splitFrame octets = .incomplete ↔
      ¬ Masked octets ∧ ∀ (a : Announcement) (body : Bytes), octets = a.header ++ body →
        a.header.length + a.length < addressSpace ∧ body.length < a.length := by
  constructor
  · intro h
    constructor
    · intro hmasked
      rw [splitFrame_masked hmasked] at h
      cases h
    · rintro a body rfl
      rw [splitFrame_header] at h
      exact splitPayload_eq_incomplete_iff.mp h
  · rintro ⟨hunmasked, hmissing⟩
    rcases exists_header hunmasked with ⟨a, body, rfl⟩ | hpart
    · rw [splitFrame_header]
      exact splitPayload_eq_incomplete_iff.mpr (hmissing a body rfl)
    · exact hpart

theorem splitFrame_eq_refused_iff {fault : Fault} :
    splitFrame octets = .refused fault ↔ Masked octets ∧ fault = maskedFrame := by
  constructor
  · intro h
    by_cases hmasked : Masked octets
    · rw [splitFrame_masked hmasked] at h
      exact ⟨hmasked, (Split.refused.inj h).symm⟩
    · rcases exists_header hmasked with ⟨a, body, rfl⟩ | hpart
      · rw [splitFrame_header] at h
        exact absurd h splitPayload_ne_refused
      · rw [hpart] at h
        cases h
  · rintro ⟨hmasked, rfl⟩
    exact splitFrame_masked hmasked

/-- The lengths of which no frame has an end with an address are the last ten that eight octets can
write. -/
theorem addressSpace_le_iff (a : Announcement) :
    addressSpace ≤ a.header.length + a.length ↔ a.form = .long ∧ 2 ^ 64 - 10 ≤ a.length := by
  obtain ⟨first, form, length, hholds⟩ := a
  have hheader : (Announcement.mk first form length hholds).header.length =
      (form.extension length).length + 2 := rfl
  have hspace : addressSpace = 2 ^ 64 := rfl
  rw [hheader, form.length_extension, hspace]
  dsimp only
  cases form with
  | inline =>
    have hshort : length ≤ 125 := hholds
    simp only [reduceCtorEq, false_and, iff_false]
    omega
  | medium =>
    have hshort : length < 2 ^ 16 := hholds
    simp only [reduceCtorEq, false_and, iff_false]
    omega
  | long =>
    simp only [true_and]
    omega

/-- A client panics just where the announced length is one of the last ten below `2 ^ 64`. -/
theorem splitFrame_eq_panicked_iff :
    splitFrame octets = .panicked .overflow ↔
      ∃ (first : UInt8) (length : Nat) (body : Bytes),
        octets = first :: 127 :: (BigEndian.encode 8 length ++ body) ∧
          2 ^ 64 - 10 ≤ length ∧ length < 2 ^ 64 := by
  constructor
  · intro h
    have hunmasked : ¬ Masked octets := by
      intro hmasked
      rw [splitFrame_masked hmasked] at h
      cases h
    rcases exists_header hunmasked with ⟨a, body, rfl⟩ | hpart
    · rw [splitFrame_header] at h
      obtain ⟨hform, hlength⟩ := (addressSpace_le_iff a).mp (splitPayload_eq_panicked_iff.mp h)
      obtain ⟨first, form, length, hholds⟩ := a
      obtain rfl : form = .long := hform
      exact ⟨first, length, body, rfl, hlength, hholds⟩
    · rw [hpart] at h
      cases h
  · rintro ⟨first, length, body, rfl, hlength, hholds⟩
    have hheader := splitFrame_header ⟨first, .long, length, hholds⟩ body
    exact hheader.trans
      (splitPayload_eq_panicked_iff.mpr ((addressSpace_le_iff _).mpr ⟨rfl, hlength⟩))

/-! ## Reading -/

theorem receive_eq_failed {σ : Type} {source : Source σ} {r : Reader σ} {fault : Fault}
    (h : r.receive source = .failed fault) : fault = .ofKind .timedOut := by
  unfold Reader.receive at h
  dsimp only at h
  split at h
  · cases h
  · cases h
  · exact (Reading.failed.inj h).symm

/-- What a read for a frame comes to: it settles what stands in the buffer with the octets that it
received, and keeps what it does not hand on.  If it is a header or a payload that is not all there,
the stream has ended or nothing came for too long. -/
theorem readFrame_received {σ : Type} (source : Source σ) (r : Reader σ) :
    ∃ last received, source.content r.stream = received ++ source.content last.stream ∧
      let split := splitFrame (r.buffer.toList ++ received)
      last.buffer.toList = split.left (r.buffer.toList ++ received) ∧
        (r.readFrame source = split.answer.map (last, ·) ∨
          split = .incomplete ∧ r.readFrame source = .ok (last, .error (.ofKind .timedOut))) := by
  fun_induction Reader.readFrame source r with
  | case1 r frame rest hsplit =>
    refine ⟨{ r with buffer := r.buffer.keep rest }, [], rfl, ?_⟩
    rw [List.append_nil, hsplit]
    exact ⟨ReceiveBuffer.toList_keep .., .inl rfl⟩
  | case2 r fault hsplit =>
    refine ⟨r, [], rfl, ?_⟩
    rw [List.append_nil, hsplit]
    exact ⟨rfl, .inl rfl⟩
  | case3 r panic hsplit =>
    refine ⟨r, [], rfl, ?_⟩
    rw [List.append_nil, hsplit]
    exact ⟨rfl, .inl rfl⟩
  | case4 r hsplit r' hreceive ih =>
    obtain ⟨data, hread, hbuffer⟩ := Reader.receive_eq_received source hreceive
    obtain ⟨-, htaken⟩ := source.takes r.buffer.room_refill_pos hread
    obtain ⟨last, received, hcontent, hsettled⟩ := ih
    have hall : r'.buffer.toList ++ received = r.buffer.toList ++ (data ++ received) := by
      rw [hbuffer]
      simp
    rw [hall] at hsettled
    refine ⟨last, data ++ received, ?_, hsettled⟩
    rw [← htaken, hcontent, List.append_assoc]
  | case5 r hsplit hreceive =>
    refine ⟨r, [], rfl, ?_⟩
    rw [List.append_nil, hsplit]
    exact ⟨rfl, .inl rfl⟩
  | case6 r hsplit fault hreceive =>
    refine ⟨r, [], rfl, ?_⟩
    rw [List.append_nil, hsplit]
    exact ⟨rfl, .inr ⟨rfl, by rw [receive_eq_failed hreceive]⟩⟩

/-- How a client takes octets apart, whatever a server sent. -/
structure SplitSpec (octets : Bytes) : Prop where
  /-- It gives a frame just where the octets are a header, the announced payload and the rest, and
  the end of the frame has an address. -/
  frame : ∀ frame rest, splitFrame octets = .frame frame rest ↔
    ∃ a : Announcement, octets = a.header ++ (frame.payload ++ rest) ∧
      frame.opcode = .ofBits a.first ∧ frame.payload.length = a.length ∧
      a.header.length + a.length < addressSpace
  /-- It asks for more just where part of the header or of the payload is missing. -/
  incomplete : splitFrame octets = .incomplete ↔
    ¬ Masked octets ∧ ∀ (a : Announcement) (body : Bytes), octets = a.header ++ body →
      a.header.length + a.length < addressSpace ∧ body.length < a.length
  /-- It fails just where the frame is masked. -/
  masked : (∃ fault, splitFrame octets = .refused fault) ↔ Masked octets
  /-- It panics just where the announced length is one of the last ten below `2 ^ 64`. -/
  panics : splitFrame octets = .panicked .overflow ↔
    ∃ (first : UInt8) (length : Nat) (body : Bytes),
      octets = first :: 127 :: (BigEndian.encode 8 length ++ body) ∧
        2 ^ 64 - 10 ≤ length ∧ length < 2 ^ 64
  /-- Without a frame the octets stay in the buffer, in front of what is received. -/
  kept : ∀ {σ : Type} (source : Source σ) (r last : Reader σ)
    (result : Except Fault (Option ReceivedFrame)), r.buffer.toList = octets →
    r.readFrame source = .ok (last, result) → (∀ frame, result ≠ .ok (some frame)) →
    ∃ received, last.buffer.toList = octets ++ received ∧
      source.content r.stream = received ++ source.content last.stream
  /-- Nothing follows a panic: no reader is left of the read. -/
  lost : splitFrame octets = .panicked .overflow →
    ∀ {σ : Type} (source : Source σ) (r : Reader σ), r.buffer.toList = octets →
      r.readFrame source = .error .overflow

/-- A client takes off whole frames only, fails on masked ones and waits for the rest of others; but
it cannot add ten octets to a length that leaves no room for them. -/
theorem splitFrame_spec (octets : Bytes) : SplitSpec octets where
  frame _ _ := splitFrame_eq_frame_iff
  incomplete := splitFrame_eq_incomplete_iff
  masked := by
    constructor
    · rintro ⟨fault, hfault⟩
      exact (splitFrame_eq_refused_iff.mp hfault).1
    · exact fun hmasked => ⟨_, splitFrame_masked hmasked⟩
  panics := splitFrame_eq_panicked_iff
  kept := by
    rintro σ source r last result rfl hread hnone
    obtain ⟨last', received, hcontent, hleft, hresult⟩ := readFrame_received source r
    rw [hread] at hresult
    cases hsplit : splitFrame (r.buffer.toList ++ received) with
    | frame frame rest =>
      rw [hsplit] at hresult
      rcases hresult with hframe | ⟨hother, -⟩
      · exact absurd (congrArg Prod.snd (Except.ok.inj hframe)) (hnone frame)
      · cases hother
    | panicked panic =>
      rw [hsplit] at hresult
      rcases hresult with hpanic | ⟨hother, -⟩
      · cases hpanic
      · cases hother
    | incomplete | refused =>
      rw [hsplit] at hresult hleft
      have hlast : last = last' := by
        rcases hresult with hended | ⟨-, hended⟩ <;> cases hended <;> rfl
      exact ⟨received, hlast ▸ hleft, hlast ▸ hcontent⟩
  lost := by
    rintro hpanic σ source r rfl
    unfold Reader.readFrame
    split <;> simp_all

/-- A server can announce a length that no client can address: one more than can be waited for. -/
theorem exists_splitFrame_panics :
    splitFrame [0x81, 127, 0xFF, 0xFF, 0xFF, 0xFF, 0xFF, 0xFF, 0xFF, 0xF5] = .incomplete ∧
      ¬ ∀ octets panic, splitFrame octets ≠ .panicked panic :=
  ⟨by decide, fun h =>
    h [0x81, 127, 0xFF, 0xFF, 0xFF, 0xFF, 0xFF, 0xFF, 0xFF, 0xF6] .overflow (by decide)⟩

end WebSocket.Peer
