import WebSocket.Peer.Client
import WebSocket.Proofs.Wire.Headers

/-!
# Frames that a client takes apart

A client takes the first frame off the octets received so far, and then the next one, until what is
left is no whole frame (`splitAll`).  It understands a server: of the octets of some frames it makes
these frames again, and wherever the octets are cut, the first of them:

    splitFrame (frame.wire ++ rest) = .frame frame.seen rest                   (splitFrame_wire)
    splitAll (frames.flatMap wire) = ⟨frames.map received, .waits, []⟩         (splitAll_wires)
    octets <+: frames.flatMap wire → (splitAll octets).frames <+: frames.map received
                                                                          (splitAll_of_isPrefix)
-/

namespace WebSocket

namespace ServerFrame

def received (frame : ServerFrame) : Peer.ReceivedFrame := ⟨frame.opcode, frame.payload⟩

/-- The frame as a client sees it, whatever its opcode: of an opcode only four bits are sent. -/
def seen (frame : ServerFrame) : Peer.ReceivedFrame := ⟨.ofBits frame.opcode.bits, frame.payload⟩

/-- Whether a client can take the frame apart: it knows the opcode, and the end of the frame has an
address. -/
structure Splits (frame : ServerFrame) : Prop where
  supported : frame.opcode ∈ Opcode.supported
  addressable : frame.payload.length < 2 ^ 63

end ServerFrame

namespace Peer

/-! ## One frame -/

/-- What stands at the front when more octets have come. -/
def Split.Follows (split : Split) (more : Bytes) (later : Split) : Prop :=
  match split with
  | .frame first rest => later = .frame first (rest ++ more)
  | .incomplete => True
  | .refused fault => later = .refused fault
  | .panicked panic => later = .panicked panic

theorem splitPayload_append (opcode : Opcode) (headerLength length : Nat) (body more : Bytes) :
    (splitPayload opcode headerLength length body).Follows more
      (splitPayload opcode headerLength length (body ++ more)) := by
  unfold splitPayload
  by_cases hspace : addressSpace ≤ headerLength + length
  · rw [if_pos hspace, if_pos hspace]
    rfl
  · rw [if_neg hspace, if_neg hspace]
    by_cases hshort : body.length < length
    · rw [if_pos hshort]
      trivial
    · rw [if_neg hshort, if_neg (by rw [List.length_append]; omega)]
      show Split.frame _ _ = Split.frame _ _
      rw [List.take_append_of_le_length (by omega), List.drop_append_of_le_length (by omega)]

/-- The declared length stands in so many octets, and the payload comes after them. -/
theorem splitPayload_drop_append (opcode : Opcode) (headerLength width : Nat) (rest more : Bytes) :
    (if rest.length < width then Split.incomplete
      else splitPayload opcode headerLength (BigEndian.decode (rest.take width))
        (rest.drop width)).Follows more
      (if (rest ++ more).length < width then Split.incomplete
      else splitPayload opcode headerLength (BigEndian.decode ((rest ++ more).take width))
        ((rest ++ more).drop width)) := by
  by_cases hshort : rest.length < width
  · rw [if_pos hshort]
    trivial
  · rw [if_neg hshort, if_neg (by rw [List.length_append]; omega),
      List.take_append_of_le_length (by omega), List.drop_append_of_le_length (by omega)]
    exact splitPayload_append _ _ _ _ _

/-- A frame that stands at the front, a refusal and a panic stay when more octets come. -/
theorem splitFrame_append (octets more : Bytes) :
    (splitFrame octets).Follows more (splitFrame (octets ++ more)) := by
  match octets with
  | [] | [_] => trivial
  | first :: second :: rest =>
    simp only [splitFrame, List.cons_append]
    by_cases hmasked : second &&& 0x80 ≠ 0
    · rw [if_pos hmasked, if_pos hmasked]
      rfl
    · rw [if_neg hmasked, if_neg hmasked]
      by_cases hmedium : second &&& 0x7F = 126
      · rw [if_pos hmedium, if_pos hmedium]
        exact splitPayload_drop_append _ _ _ _ _
      · rw [if_neg hmedium, if_neg hmedium]
        by_cases hlong : second &&& 0x7F = 127
        · rw [if_pos hlong, if_pos hlong]
          exact splitPayload_drop_append _ _ _ _ _
        · rw [if_neg hlong, if_neg hlong]
          exact splitPayload_append _ _ _ _ _

theorem length_splitPayload {opcode : Opcode} {headerLength length : Nat} {body rest : Bytes}
    {frame : ReceivedFrame} (h : splitPayload opcode headerLength length body = .frame frame rest) :
    frame.payload.length = length ∧ body.length = length + rest.length := by
  unfold splitPayload at h
  split at h
  · cases h
  · split at h
    · cases h
    · cases h
      rw [List.length_take, List.length_drop]
      omega

theorem low_octet_le {octet : UInt8} (hmedium : octet &&& 0x7F ≠ 126)
    (hlong : octet &&& 0x7F ≠ 127) : (octet &&& 0x7F).toNat ≤ 125 :=
  octet_all
    (fun octet => octet &&& 0x7F ≠ 126 → octet &&& 0x7F ≠ 127 → (octet &&& 0x7F).toNat ≤ 125)
    (by decide +kernel) octet hmedium hlong

/-- A header takes two, four or ten octets, and there is no room for every length in the short
ones. -/
structure HeaderWidth (width length : Nat) : Prop where
  widths : width = 2 ∨ width = 4 ∨ width = 10
  inline : width = 2 → length ≤ 125
  medium : width = 4 → length ≤ 65535

/-- What a client takes off is a header, the payload and nothing else. -/
theorem width_of_splitFrame {octets rest : Bytes} {frame : ReceivedFrame}
    (h : splitFrame octets = .frame frame rest) : ∃ width,
      octets.length = width + frame.payload.length + rest.length ∧
        HeaderWidth width frame.payload.length := by
  match octets with
  | [] | [_] => cases h
  | first :: second :: body =>
    simp only [splitFrame] at h
    simp only [List.length_cons]
    split at h
    · cases h
    · split at h
      · split at h
        · cases h
        · obtain ⟨hpayload, hbody⟩ := length_splitPayload h
          have hless := BigEndian.decode_lt_span (body.take 2)
          rw [List.length_take, Nat.min_eq_left (by omega)] at hless
          rw [List.length_drop] at hbody
          refine ⟨4, by omega, .inr (.inl rfl), nofun, fun _ => ?_⟩
          have hspan : BigEndian.span 2 = 65536 := rfl
          omega
      · split at h
        · split at h
          · cases h
          · obtain ⟨hpayload, hbody⟩ := length_splitPayload h
            rw [List.length_drop] at hbody
            exact ⟨10, by omega, .inr (.inr rfl), nofun, nofun⟩
        · rename_i hmedium hlong
          obtain ⟨hpayload, hbody⟩ := length_splitPayload h
          refine ⟨2, by omega, .inl rfl, fun _ => ?_, nofun⟩
          rw [hpayload]
          exact low_octet_le hmedium hlong

/-- A frame is never empty. -/
theorem length_splitFrame {octets rest : Bytes} {frame : ReceivedFrame}
    (h : splitFrame octets = .frame frame rest) : rest.length < octets.length := by
  obtain ⟨width, hlength, hwidth⟩ := width_of_splitFrame h
  have := hwidth.widths
  omega

/-! ## Frames of a server -/

theorem splitPayload_of_length {opcode : Opcode} {headerLength : Nat} {payload : Bytes}
    (h : headerLength + payload.length < addressSpace) (rest : Bytes) :
    splitPayload opcode headerLength payload.length (payload ++ rest) =
      .frame ⟨opcode, payload⟩ rest := by
  unfold splitPayload
  rw [if_neg (by omega), if_neg (by rw [List.length_append]; omega), List.take_left, List.drop_left]

/-- The second octet of a short frame is its length. -/
theorem inline_octet {length : Nat} (h : length ≤ 125) :
    UInt8.ofNat length &&& 0x80 = 0 ∧ UInt8.ofNat length &&& 0x7F ≠ 126 ∧
      UInt8.ofNat length &&& 0x7F ≠ 127 ∧ (UInt8.ofNat length &&& 0x7F).toNat = length := by
  have hall : ∀ n : Fin 126, UInt8.ofNat n.val &&& 0x80 = 0 ∧ UInt8.ofNat n.val &&& 0x7F ≠ 126 ∧
      UInt8.ofNat n.val &&& 0x7F ≠ 127 ∧ (UInt8.ofNat n.val &&& 0x7F).toNat = n.val := by
    decide +kernel
  exact hall ⟨length, by omega⟩

theorem ofBits_top_or (octet : UInt8) : Opcode.ofBits (0x80 ||| octet) = .ofBits octet := by
  have hlow : (0x80 ||| octet) &&& 0x0F = octet &&& 0x0F :=
    octet_all (fun octet => (0x80 ||| octet) &&& 0x0F = octet &&& 0x0F) (by decide +kernel) octet
  rw [Opcode.ofBits, Opcode.ofBits, hlow]

/-- A client takes a frame of the server off what it has received, if the frame is one that it can
address. -/
theorem splitFrame_wire {frame : ServerFrame} (h : frame.wireLength < addressSpace) (rest : Bytes) :
    splitFrame (frame.wire ++ rest) = .frame frame.seen rest := by
  have hopcode : Opcode.ofBits (0x80 ||| frame.opcode.bits) = .ofBits frame.opcode.bits :=
    ofBits_top_or frame.opcode.bits
  rw [ServerFrame.wireLength, ServerFrame.length_header] at h
  unfold ServerFrame.wire ServerFrame.header
  dsimp only
  split
  · rename_i hinline
    rw [if_pos hinline] at h
    obtain ⟨hunmasked, hmedium, hlong, hlength⟩ := inline_octet hinline
    simp only [List.cons_append, List.nil_append, splitFrame, hopcode, hunmasked, ne_eq,
      not_true_eq_false, if_false, hmedium, hlong, hlength]
    exact splitPayload_of_length h rest
  · rename_i hlonger
    rw [if_neg hlonger] at h
    split
    · rename_i hmedium
      rw [if_pos hmedium] at h
      have hdigits := BigEndian.length_encode 2 frame.payload.length
      have hlength : BigEndian.decode (BigEndian.encode 2 frame.payload.length) =
          frame.payload.length := by
        rw [BigEndian.decode_encode, Nat.mod_eq_of_lt hmedium]
      simp only [List.cons_append, splitFrame, hopcode, List.append_assoc]
      rw [if_neg (by decide), if_pos (by decide), if_neg (by rw [List.length_append]; omega),
        List.take_left' hdigits, List.drop_left' hdigits, hlength]
      exact splitPayload_of_length h rest
    · rename_i hlong
      rw [if_neg hlong] at h
      have hdigits := BigEndian.length_encode 8 frame.payload.length
      have hlength : BigEndian.decode (BigEndian.encode 8 frame.payload.length) =
          frame.payload.length := by
        rw [BigEndian.decode_encode, Nat.mod_eq_of_lt]
        show frame.payload.length < addressSpace
        omega
      simp only [List.cons_append, splitFrame, hopcode, List.append_assoc]
      rw [if_neg (by decide), if_neg (by decide), if_pos (by decide),
        if_neg (by rw [List.length_append]; omega), List.take_left' hdigits,
        List.drop_left' hdigits, hlength]
      exact splitPayload_of_length h rest

/-- How the server writes a frame: behind a header of two, four or ten octets, the shortest that a
client would take for the header of this frame. -/
structure Compact (frame : ServerFrame) : Prop where
  length : frame.header.length =
    if frame.payload.length ≤ 125 then 2 else if frame.payload.length ≤ 65535 then 4 else 10
  shortest : ∀ header rest, splitFrame (header ++ frame.payload ++ rest) = .frame frame.seen rest →
    frame.header.length ≤ header.length
  written : frame.wireLength = frame.wire.length

theorem compact (frame : ServerFrame) : Compact frame := by
  have hspan : BigEndian.span 2 = 65536 := rfl
  have hlength : frame.header.length =
      if frame.payload.length ≤ 125 then 2 else if frame.payload.length ≤ 65535 then 4 else 10 := by
    rw [ServerFrame.length_header, hspan, maxControlPayload]
    simp only [Nat.lt_succ_iff]
  refine ⟨hlength, ?_, frame.length_wire.symm⟩
  intro header rest hsplit
  obtain ⟨width, hwhole, hwidth⟩ := width_of_splitFrame hsplit
  simp only [List.length_append, ServerFrame.seen] at hwhole
  have hwidths := hwidth.widths
  have hinline := hwidth.inline
  have hmedium := hwidth.medium
  simp only [ServerFrame.seen] at hinline hmedium
  rw [hlength]
  split
  · omega
  · split
    · omega
    · omega

theorem seen_eq_received {frame : ServerFrame} (h : frame.opcode ∈ Opcode.supported) :
    frame.seen = frame.received := by
  rw [ServerFrame.seen, Opcode.ofBits_bits (frame.opcode.isSupported_iff_mem.mpr h)]
  rfl

theorem addressed_of_splits {frame : ServerFrame} (h : frame.Splits) :
    frame.wireLength < addressSpace := by
  have haddress := h.addressable
  have hheader : frame.header.length ≤ 10 := by
    rw [ServerFrame.length_header]
    split
    · omega
    · split
      · omega
      · exact Nat.le_refl 10
  unfold ServerFrame.wireLength addressSpace
  omega

/-- A client takes a frame with an opcode that it knows off what it has received. -/
theorem splitFrame_of_splits {frame : ServerFrame} (h : frame.Splits) (rest : Bytes) :
    splitFrame (frame.wire ++ rest) = .frame frame.received rest := by
  rw [splitFrame_wire (addressed_of_splits h), seen_eq_received h.supported]

/-! ## All frames -/

/-- Why a client takes no more frames off. -/
inductive Ending where
  /-- What is left is no whole frame. -/
  | waits
  | refused (fault : Fault)
  | panicked (panic : Panic)
  deriving DecidableEq, Repr

/-- What a client makes of the octets received so far: whole frames, and what is left. -/
structure Splits where
  frames : List ReceivedFrame
  ending : Ending
  rest : Bytes
  deriving DecidableEq, Repr

def splitAll (octets : Bytes) : Splits :=
  match _h : splitFrame octets with
  | .frame frame rest =>
    let later := splitAll rest
    { later with frames := frame :: later.frames }
  | .incomplete => ⟨[], .waits, octets⟩
  | .refused fault => ⟨[], .refused fault, octets⟩
  | .panicked panic => ⟨[], .panicked panic, octets⟩
termination_by octets.length
decreasing_by exact length_splitFrame _h

theorem splitAll_of_frame {octets rest : Bytes} {frame : ReceivedFrame}
    (h : splitFrame octets = .frame frame rest) :
    splitAll octets = { splitAll rest with frames := frame :: (splitAll rest).frames } := by
  rw [splitAll]
  split <;> simp_all

theorem splitAll_of_incomplete {octets : Bytes} (h : splitFrame octets = .incomplete) :
    splitAll octets = ⟨[], .waits, octets⟩ := by
  rw [splitAll]
  split <;> simp_all

/-- Part of a frame gives nothing yet. -/
theorem splitFrame_of_part {frame : ServerFrame} (h : frame.Splits) {octets more : Bytes}
    (hpart : octets ++ more = frame.wire) (hmore : more ≠ []) : splitFrame octets = .incomplete := by
  have hwhole := splitFrame_of_splits h []
  rw [List.append_nil, ← hpart] at hwhole
  have hfollows := splitFrame_append octets more
  rw [hwhole] at hfollows
  cases hsplit : splitFrame octets with
  | incomplete => rfl
  | refused fault =>
    rw [hsplit] at hfollows
    cases hfollows
  | panicked panic =>
    rw [hsplit] at hfollows
    cases hfollows
  | frame first rest =>
    rw [hsplit] at hfollows
    have hrest : [] = rest ++ more := (Split.frame.inj hfollows).2
    exact absurd (List.append_eq_nil_iff.mp hrest.symm).2 hmore

theorem splitAll_wires {frames : List ServerFrame} (h : ∀ frame ∈ frames, frame.Splits) :
    splitAll (frames.flatMap (·.wire)) = ⟨frames.map (·.received), .waits, []⟩ := by
  induction frames with
  | nil => exact splitAll_of_incomplete rfl
  | cons frame frames ih =>
    obtain ⟨hframe, hframes⟩ := List.forall_mem_cons.mp h
    rw [List.flatMap_cons, splitAll_of_frame (splitFrame_of_splits hframe _), ih hframes]
    rfl

/-- Wherever the octets of some frames are cut, a client makes the first of the frames of what comes
before the cut, and waits for more. -/
theorem splitAll_of_isPrefix {frames : List ServerFrame} (h : ∀ frame ∈ frames, frame.Splits)
    {octets : Bytes} (hcut : octets <+: frames.flatMap (·.wire)) :
    (splitAll octets).ending = .waits ∧ (splitAll octets).frames <+: frames.map (·.received) := by
  induction frames generalizing octets with
  | nil =>
    have hnone : octets = [] := List.prefix_nil.mp hcut
    rw [hnone, splitAll_of_incomplete rfl]
    exact ⟨rfl, List.nil_prefix⟩
  | cons frame frames ih =>
    obtain ⟨hframe, hframes⟩ := List.forall_mem_cons.mp h
    rw [List.flatMap_cons] at hcut
    rcases Nat.lt_or_ge octets.length frame.wire.length with hshort | hlong
    -- The cut is within the first frame.
    · obtain ⟨more, hmore⟩ :=
        List.prefix_of_prefix_length_le hcut (List.prefix_append _ _) (Nat.le_of_lt hshort)
      have hleft : more ≠ [] := by
        rintro rfl
        rw [← hmore, List.append_nil] at hshort
        exact absurd hshort (Nat.lt_irrefl _)
      rw [splitAll_of_incomplete (splitFrame_of_part hframe hmore hleft)]
      exact ⟨rfl, List.nil_prefix⟩
    · obtain ⟨later, rfl⟩ := List.prefix_of_prefix_length_le (List.prefix_append _ _) hcut hlong
      rw [List.prefix_append_right_inj] at hcut
      obtain ⟨hwaits, hfirst⟩ := ih hframes hcut
      rw [splitAll_of_frame (splitFrame_of_splits hframe later)]
      exact ⟨hwaits, List.cons_prefix_cons.mpr ⟨rfl, hfirst⟩⟩

end Peer

end WebSocket
