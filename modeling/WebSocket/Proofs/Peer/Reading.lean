import WebSocket.Proofs.Opening.Replies
import WebSocket.Proofs.Peer.Splitting

/-!
# A client reads back what the server wrote

A reader makes of a stream what stands in its octets, wherever the stream is cut.  `Reader.all` is
what came and is not handed on yet, with what is still to come; no read changes it.  A search of
the buffer finds what a search of all octets finds, since what stands at the front stays there when
more octets come (`splitFrame_append`, `headEnds_append`):

    r.readFrame source = (splitFrame (r.all source)).answer.map (r', ·)      (readFrame_settles)
    (r.readHead source).2 = .ok ((r.all source).take e)   where the head ends at e
                                                                              (readHead_settles)

So a client that is sent a reply and frames gets the reply, the frames in order, and then the end
(`reads_back`).
-/

namespace WebSocket

/-! ## Sources that flow -/

namespace Source

variable {σ : Type}

/-- A source never fails to give something in certain states: octets as long as there are any, and
then the end. -/
structure Flows (source : Source σ) (flowing : σ → Prop) : Prop where
  octets : ∀ {s : σ} {most : Nat}, flowing s → source.content s ≠ [] →
    ∃ s' data, source.read s most = (s', .octets data) ∧ flowing s'
  ended : ∀ {s : σ} {most : Nat}, flowing s → source.content s = [] →
    ∃ s', source.read s most = (s', .ended)

theorem flows_pieces : pieces.Flows fun _ => True where
  octets := by
    intro all most _ hcontent
    show ∃ left data, readPieces all most = (left, .octets data) ∧ True
    fun_induction readPieces all most with
    | case1 => exact absurd rfl hcontent
    | case2 later most ih => exact ih hcontent
    | case3 piece later most hpiece => exact ⟨_, _, rfl, trivial⟩
  ended := by
    intro all most _ hcontent
    show ∃ left, readPieces all most = (left, .ended)
    fun_induction readPieces all most with
    | case1 => exact ⟨[], rfl⟩
    | case2 later most ih => exact ih hcontent
    | case3 piece later most hpiece =>
      exact absurd (List.append_eq_nil_iff.mp hcontent).1 hpiece

end Source

namespace Peer

/-! ## One read -/

/-- What a caller is told of what stands at the front of all octets, if there is no panic. -/
def Split.answer : Split → Except Panic (Except Fault (Option ReceivedFrame))
  | .frame first _ => .ok (.ok (some first))
  | .incomplete => .ok (.ok none)
  | .refused fault => .ok (.error fault)
  | .panicked panic => .error panic

/-- What is left of the octets. -/
def Split.left (octets : Bytes) : Split → Bytes
  | .frame _ rest => rest
  | .incomplete | .refused _ | .panicked _ => octets

namespace Reader

variable {σ : Type}

/-- The octets that came and are not handed on yet, and those that are still to come. -/
def all (source : Source σ) (r : Reader σ) : Bytes := r.buffer.toList ++ source.content r.stream

theorem all_start (source : Source σ) (stream : σ) :
    (start stream).all source = source.content stream := by
  simp [all, start]

/-- Read frames so many times, unless there is a panic before. -/
def readFrames (source : Source σ) :
    Nat → Reader σ → Except Panic (Reader σ × List (Except Fault (Option ReceivedFrame)))
  | 0, r => .ok (r, [])
  | n + 1, r => do
    let (next, result) ← r.readFrame source
    let (last, later) ← readFrames source n next
    pure (last, result :: later)

variable {source : Source σ} {flowing : σ → Prop}

/-- A read from a source that flows moves octets into the buffer, unless there are no more. -/
theorem receive_cases (hflows : source.Flows flowing) {r : Reader σ} (h : flowing r.stream) :
    (∃ r', r.receive source = .received r' ∧ flowing r'.stream ∧ r'.all source = r.all source) ∨
      (r.receive source = .ended ∧ r.all source = r.buffer.toList) := by
  by_cases hcontent : source.content r.stream = []
  · obtain ⟨stream, hread⟩ := hflows.ended h hcontent
    refine .inr ⟨?_, ?_⟩
    · rw [receive, hread]
    · rw [all, hcontent, List.append_nil]
  · obtain ⟨stream, data, hread, hstream⟩ := hflows.octets h hcontent
    refine .inl ⟨⟨stream, r.buffer.refill.append data⟩, ?_, hstream, ?_⟩
    · rw [receive, hread]
    · obtain ⟨-, htaken⟩ := source.takes r.buffer.room_refill_pos hread
      rw [all, all, ← htaken]
      simp

theorem all_of_received (hflows : source.Flows flowing) {r r' : Reader σ} (h : flowing r.stream)
    (hreceive : r.receive source = .received r') :
    flowing r'.stream ∧ r'.all source = r.all source := by
  rcases receive_cases hflows h with ⟨next, hnext, hall⟩ | ⟨hended, -⟩
  · obtain rfl := Reading.received.inj (hreceive.symm.trans hnext)
    exact hall
  · exact absurd (hreceive.symm.trans hended) (by nofun)

theorem all_of_ended (hflows : source.Flows flowing) {r : Reader σ} (h : flowing r.stream)
    (hreceive : r.receive source = .ended) : r.all source = r.buffer.toList := by
  rcases receive_cases hflows h with ⟨next, hnext, -⟩ | ⟨-, hall⟩
  · exact absurd (hreceive.symm.trans hnext) (by nofun)
  · exact hall

theorem receive_ne_failed (hflows : source.Flows flowing) {r : Reader σ} (h : flowing r.stream)
    (fault : Fault) : r.receive source ≠ .failed fault := by
  intro hfailed
  rcases receive_cases hflows h with ⟨next, hnext, -⟩ | ⟨hended, -⟩
  · exact absurd (hfailed.symm.trans hnext) (by nofun)
  · exact absurd (hfailed.symm.trans hended) (by nofun)

/-- What is read for a frame is what stands at the front of all octets. -/
theorem readFrame_settles (hflows : source.Flows flowing) (r : Reader σ) (h : flowing r.stream) :
    ∃ r', r.readFrame source = (splitFrame (r.all source)).answer.map (r', ·) ∧
      flowing r'.stream ∧ r'.all source = (splitFrame (r.all source)).left (r.all source) := by
  -- What stands at the front of the buffer stands there when the other octets have come.
  have hfollows (r : Reader σ) : (splitFrame r.buffer.toList).Follows (source.content r.stream)
      (splitFrame (r.all source)) :=
    splitFrame_append r.buffer.toList (source.content r.stream)
  fun_induction readFrame source r with
  | case1 r frame rest hsplit =>
    have hall := hfollows r
    rw [hsplit] at hall
    rw [show splitFrame (r.all source) = .frame frame (rest ++ source.content r.stream) from hall]
    refine ⟨{ r with buffer := r.buffer.keep rest }, rfl, h, ?_⟩
    simp [all, Split.left]
  | case2 r fault hsplit =>
    have hall := hfollows r
    rw [hsplit] at hall
    rw [show splitFrame (r.all source) = .refused fault from hall]
    exact ⟨r, rfl, h, rfl⟩
  | case3 r panic hsplit =>
    have hall := hfollows r
    rw [hsplit] at hall
    rw [show splitFrame (r.all source) = .panicked panic from hall]
    exact ⟨r, rfl, h, rfl⟩
  | case4 r hsplit r' hreceive ih =>
    obtain ⟨hflowing, hall⟩ := all_of_received hflows h hreceive
    rw [← hall]
    exact ih hflowing
  | case5 r hsplit hreceive =>
    have hall := all_of_ended hflows h hreceive
    rw [hall, hsplit]
    exact ⟨r, rfl, h, hall⟩
  | case6 r hsplit fault hreceive => exact absurd hreceive (receive_ne_failed hflows h fault)

/-- What is read for a head ends where the head of all octets ends. -/
theorem readHead_settles (hflows : source.Flows flowing) (r : Reader σ) (h : flowing r.stream)
    {e : Nat} (hends : Opening.HeadEnds (r.all source) e) :
    ∃ r', r.readHead source = (r', .ok ((r.all source).take e)) ∧ flowing r'.stream ∧
      r'.all source = (r.all source).drop e := by
  fun_induction readHead source r with
  | case1 r position hfound head buffer hsplit =>
    have hcame := Opening.blankLine?_eq_some_iff.mp hfound
    have hwithin := hcame.le_length
    obtain rfl : position = e :=
      ((Opening.headEnds_append hwithin (source.content r.stream)).mpr hcame).unique hends
    obtain rfl : head = r.buffer.toList.take position := by
      rw [← ReceiveBuffer.split_fst, hsplit]
    refine ⟨{ r with buffer := buffer }, ?_, h, ?_⟩
    · rw [all, List.take_append_of_le_length hwithin]
    · rw [all, all, List.drop_append_of_le_length hwithin, ← ReceiveBuffer.toList_split_snd, hsplit]
  | case2 r hnone r' hreceive ih =>
    obtain ⟨hflowing, hall⟩ := all_of_received hflows h hreceive
    rw [← hall] at hends ⊢
    exact ih hflowing hends
  | case3 r hnone hreceive =>
    rw [all_of_ended hflows h hreceive] at hends
    exact absurd hends (Opening.blankLine?_eq_none_iff.mp hnone e)
  | case4 r hnone error hreceive => exact absurd hreceive (receive_ne_failed hflows h error)

/-! ## Frames one after another -/

/-- Once a server's frames are all that is to come, they are read in order, and then the end. -/
theorem readFrames_wires (hflows : source.Flows flowing) {frames : List ServerFrame}
    (haddress : ∀ frame ∈ frames, frame.wireLength < addressSpace) (r : Reader σ)
    (h : flowing r.stream) (hall : r.all source = frames.flatMap (·.wire)) (further : Nat) :
    ∃ last, r.readFrames source (frames.length + further) = .ok
        (last, frames.map (fun frame => .ok (some frame.seen)) ++ .replicate further (.ok none)) ∧
      last.all source = [] := by
  induction frames generalizing r with
  | nil =>
    -- Nothing is left, so every further read comes to the end.
    induction further generalizing r with
    | zero => exact ⟨r, rfl, hall⟩
    | succ further ih =>
      obtain ⟨next, hread, hflowing, hleft⟩ := readFrame_settles hflows r h
      have hnone : splitFrame (r.all source) = .incomplete := by rw [hall]; rfl
      rw [hnone] at hread hleft
      obtain ⟨last, hlater, hlast⟩ := ih next hflowing (hleft.trans hall)
      rw [List.length_nil, Nat.zero_add] at hlater ⊢
      refine ⟨last, ?_, hlast⟩
      rw [readFrames, hread]
      show (do let (last, later) ← readFrames source further next; pure (last, _ :: later)) = _
      rw [hlater]
      rfl
  | cons frame frames ih =>
    obtain ⟨hframe, hframes⟩ := List.forall_mem_cons.mp haddress
    obtain ⟨next, hread, hflowing, hleft⟩ := readFrame_settles hflows r h
    have hfirst : splitFrame (r.all source) = .frame frame.seen (frames.flatMap (·.wire)) := by
      rw [hall, List.flatMap_cons, splitFrame_wire hframe]
    rw [hfirst] at hread hleft
    obtain ⟨last, hlater, hlast⟩ := ih hframes next hflowing hleft
    refine ⟨last, ?_, hlast⟩
    rw [List.length_cons, Nat.succ_add, readFrames, hread]
    show (do let (last, later) ← readFrames source _ next; pure (last, _ :: later)) = _
    rw [hlater]
    rfl

/-! ## A reply and then frames -/

/-- How a client fares on a stream that carries a reply and then frames. -/
structure ReadsBack (source : Source σ) (stream : σ) (reply : Bytes) (frames : List ServerFrame)
    (opened : Reader σ) : Prop where
  /-- The head is the whole reply and nothing else. -/
  head : (start stream).readHead source = (opened, .ok reply)
  /-- As text, it is the text of the reply. -/
  text : ∃ text, (start stream).readReply source = (opened, .ok text) ∧ Bytes.ofString text = reply
  /-- The frames come one after another, then nothing is in the buffer, and every further read comes
  to the end of the stream. -/
  inOrder : ∀ further, ∃ last, opened.readFrames source (frames.length + further) = .ok
      (last, frames.map (fun frame => .ok (some frame.seen)) ++ .replicate further (.ok none)) ∧
    last.buffer.toList = []
  /-- No header is longer than it has to be. -/
  compact : ∀ frame ∈ frames, Compact frame

theorem readsBack_of_flows (hflows : source.Flows flowing) (request : Bytes)
    {frames : List ServerFrame} (haddress : ∀ frame ∈ frames, frame.wireLength < addressSpace)
    {stream : σ} (h : flowing stream)
    (hcontent : source.content stream =
      (Opening.negotiate request).reply ++ frames.flatMap (·.wire)) :
    ∃ opened, ReadsBack source stream (Opening.negotiate request).reply frames opened := by
  have hall : (start stream).all source =
      (Opening.negotiate request).reply ++ frames.flatMap (·.wire) := by
    rw [all_start, hcontent]
  have hends : Opening.HeadEnds ((start stream).all source)
      (Opening.negotiate request).reply.length := by
    rw [hall]
    exact (Opening.headEnds_append (Nat.le_refl _) _).mpr (Opening.headEnds_reply request)
  obtain ⟨opened, hhead, hflowing, hleft⟩ := readHead_settles hflows (start stream) h hends
  rw [hall, List.take_left] at hhead
  rw [hall, List.drop_left] at hleft
  refine ⟨opened, hhead, ⟨(Opening.negotiate request).reply.toStringRepaired, ?_, ?_⟩, ?_,
    fun frame _ => compact frame⟩
  · rw [readReply, hhead]
    rfl
  · exact Opening.ofString_repaired_reply request
  · intro further
    obtain ⟨last, hframes, hlast⟩ := readFrames_wires hflows haddress opened hflowing hleft further
    exact ⟨last, hframes, (List.append_eq_nil_iff.mp hlast).1⟩

/-- However the octets of a reply and of frames are cut, a client reads the reply and the frames
back.  A frame has fewer octets than there are addresses. -/
theorem reads_back (request : Bytes) (frames : List ServerFrame) (chunks : List Bytes)
    (haddress : ∀ frame ∈ frames, frame.wireLength < addressSpace)
    (hchunks : chunks.flatten = (Opening.negotiate request).reply ++ frames.flatMap (·.wire)) :
    ∃ opened, ReadsBack .pieces chunks (Opening.negotiate request).reply frames opened :=
  readsBack_of_flows Source.flows_pieces request haddress trivial hchunks

/-- The first octets one at a time, then nothing, and then the rest at once. -/
def unevenly (octets : Bytes) : List Bytes :=
  (octets.take 150).map (fun octet => [octet]) ++ [[], octets.drop 150]

theorem flatten_unevenly (octets : Bytes) : (unevenly octets).flatten = octets := by
  have hsingle (first : Bytes) : (first.map fun octet => [octet]).flatten = first := by
    rw [← List.flatMap_def, List.flatMap_singleton']
  rw [unevenly, List.flatten_append, hsingle]
  show octets.take 150 ++ (octets.drop 150 ++ []) = octets
  rw [List.append_nil, List.take_append_drop]

/-- Frames of which one has an opcode that is not in its range, one is empty, and one has a longer
header. -/
def sampleFrames : List ServerFrame :=
  [.text "hi", ⟨.reserved 0x13, [1]⟩, ⟨.ping, []⟩, .binary (.replicate 200 0)]

theorem reads_back_sample : ∃ opened, ReadsBack .pieces
    (unevenly ((Opening.negotiate (Bytes.ofString (upgradeRequest (some clientKey) ""))).reply ++
      sampleFrames.flatMap (·.wire)))
    (Opening.negotiate (Bytes.ofString (upgradeRequest (some clientKey) ""))).reply
    sampleFrames opened :=
  reads_back _ _ _ (by decide +kernel) (flatten_unevenly _)

end Reader

end Peer

end WebSocket
