import WebSocket.Proofs.Session.Soundness
import WebSocket.Proofs.Session.Speech

/-!
# What a connection makes of its input

A connection handles its input frame after frame.  What comes of it is told by the speech in the
octets alone: the application is told of the messages of the speech, its answers join the queue, and
the connection breaks off, is on its way to close, or goes on as the speech has ended
(`Connection.understands_consume`).
-/

namespace WebSocket

namespace Connection

/-! ## One frame -/

theorem receive_of_violation {frame : InboundFrame} (h : frame.isViolation = true)
    (c : Connection) : ∃ error, c.receive frame = ⟨c, [], some error⟩ := by
  simp only [InboundFrame.isViolation, Bool.and_eq_true, beq_iff_eq, Option.isNone_iff_eq_none] at h
  simp only [receive, h.1, h.2]
  exact ⟨_, rfl⟩

/-- The answer to a Close frame is on its way. -/
theorem receive_of_close {c : Connection} (hopen : c.closed = false) {frame : InboundFrame}
    (h : frame.opcode = .close) :
    (c.receive frame).violation = none ∧ delivered (c.receive frame).effects = [] ∧
      joined (c.receive frame).effects = [.closeReply frame.payload] ∧
      (c.receive frame).connection.closeQueued = true := by
  have hopen' : c.markClosing.closed = false := hopen
  have hreceive : c.receive frame = ⟨(c.markClosing.answer ⟨.closeReply frame.payload, none⟩).1,
      (c.markClosing.answer ⟨.closeReply frame.payload, none⟩).2, none⟩ := by
    simp only [receive, h]
  rw [hreceive]
  exact ⟨rfl, delivered_answer _ _, joined_answer hopen' _, closeQueued_answer _ _⟩

/-- The application is told of a message, and a Ping frame is answered. -/
theorem receive_of_goesOn {c : Connection} (hopen : c.closed = false) {frame : InboundFrame}
    (hsupported : frame.opcode ∈ Opcode.supported) (h : frame.goesOn) :
    (c.receive frame).violation = none ∧
      delivered (c.receive frame).effects = (frame.message?.map Event.message).toList ∧
      joined (c.receive frame).effects = frame.pong?.toList ∧
      (c.receive frame).connection.closed = false ∧
      (c.receive frame).connection.closeQueued = c.closeQueued := by
  obtain ⟨opcode, payload⟩ := frame
  obtain ⟨hclose, hviolation⟩ := h
  cases opcode with
  | text =>
    cases hstring : payload.toString? with
    | none => simp [InboundFrame.isViolation, hstring] at hviolation
    | some s =>
      have hreceive : c.receive ⟨.text, payload⟩ =
          ⟨c, [.deliver c.id (.message (.text s))], none⟩ := by
        simp only [receive, hstring]
      have hmessage : InboundFrame.message? ⟨.text, payload⟩ = some (.text s) := by
        simp only [InboundFrame.message?, hstring, Option.map_some]
      rw [hreceive, hmessage]
      exact ⟨rfl, rfl, rfl, hopen, rfl⟩
  | binary => exact ⟨rfl, rfl, rfl, hopen, rfl⟩
  | ping =>
    exact ⟨rfl, delivered_answer _ _, joined_answer hopen _,
      (continues_answer c _).closed.trans hopen, closeQueued_answer _ _⟩
  | pong => exact ⟨rfl, rfl, rfl, hopen, rfl⟩
  | close => exact absurd rfl hclose
  | continuation | reserved => simp [Opcode.supported] at hsupported

/-- A frame that ends the session is a violation. -/
theorem isViolation_of_receive {c : Connection} (hopen : c.closed = false) {frame : InboundFrame}
    (hsupported : frame.opcode ∈ Opcode.supported) {error : FrameError}
    (h : (c.receive frame).violation = some error) :
    frame.opcode ≠ .close ∧ frame.isViolation = true := by
  have hclose : frame.opcode ≠ .close := by
    intro hclose
    rw [(receive_of_close hopen hclose).1] at h
    cases h
  refine ⟨hclose, ?_⟩
  by_contra hgood
  have hgoes : frame.goesOn := ⟨hclose, Bool.not_eq_true _ ▸ hgood⟩
  rw [(receive_of_goesOn hopen hsupported hgoes).1] at h
  cases h

/-- The speech goes on after any other frame that is no Close frame. -/
theorem goesOn_of_receive {c : Connection} {frame : InboundFrame} (hclose : frame.opcode ≠ .close)
    (h : (c.receive frame).violation = none) : frame.goesOn := by
  refine ⟨hclose, ?_⟩
  by_contra hviolation
  obtain ⟨error, hbad⟩ := receive_of_violation (Bool.not_eq_false _ ▸ hviolation) c
  rw [hbad] at h
  cases h

/-! ## All frames -/

/-- How a connection stands after some octets, of which its decoder and its input are left, and
whether they broke a rule. -/
inductive Heeds (decoder : Decoder) (octets : Bytes) (c : Connection) :
    Option FrameError → Speech → Prop
  /-- It goes on with what could not be decoded yet. -/
  | goesOn {frames : List InboundFrame} :
      decoder.drain octets = ⟨frames, none, c.decoder, c.input.toList⟩ → c.closeQueued = false →
      Heeds decoder octets c none ⟨frames, .pending⟩
  /-- It takes no notice of what comes after the Close frame. -/
  | closes {frames : List InboundFrame} {close : InboundFrame} {upto : Bytes} :
      octets = upto ++ c.input.toList →
      decoder.drain upto = ⟨frames ++ [close], none, c.decoder, []⟩ →
      c.decoder.awaiting = .header → close.opcode = .close → c.closeQueued = true →
      Heeds decoder octets c none ⟨frames, .farewell close.payload⟩
  /-- It breaks off. -/
  | breaks {frames : List InboundFrame} {error : FrameError} : c.closeQueued = false →
      Heeds decoder octets c (some error) ⟨frames, .violation⟩

/-- What comes of handling some octets is told by a speech. -/
structure Understands (decoder : Decoder) (octets : Bytes) (handled : Handled) (speech : Speech) :
    Prop where
  told : delivered handled.effects = speech.messages.map .message
  own : joined handled.effects = speech.answers
  heeds : Heeds decoder octets handled.connection handled.violation speech

/-- A frame that is handled before comes first in the speech. -/
theorem Heeds.cons {decoder : Decoder} {octets : Bytes} {c : Connection}
    {violation : Option FrameError} {speech : Speech} {frame : InboundFrame}
    (hframe : (decoder.decode octets).result = .ok (some frame))
    (h : Heeds (decoder.decode octets).decoder (decoder.decode octets).rest c violation speech) :
    Heeds decoder octets c violation (speech.after [frame]) := by
  cases h with
  | @goesOn frames hdrain hfirst =>
    refine .goesOn ?_ hfirst
    rw [Decoder.drain_of_frame hframe, hdrain]
    rfl
  | @closes frames close upto hrest hdrain hawaiting hclose hqueued =>
    obtain ⟨taken, hoctets, htaken⟩ := Decoder.drain_split hframe
    have hwhole : octets = (taken ++ upto) ++ c.input.toList := by
      rw [hoctets, hrest, List.append_assoc]
    refine .closes hwhole ?_ hawaiting hclose hqueued
    rw [Decoder.drain_append, htaken]
    simp only [Drained.resume, List.nil_append, hdrain]
    rfl
  | breaks hfirst => exact .breaks hfirst

/-- After a Close frame what is left of the input stays as it is. -/
theorem consumeFrom_of_closeQueued {c : Connection} (h : c.closeQueued = true) (octets : Bytes) :
    c.consumeFrom octets = ⟨c.withInput octets, [], none⟩ := by
  rw [consumeFrom, if_pos (by simp [h])]

/-- What comes of handling a frame, and the rest of the octets after it. -/
def handledFrom (c : Connection) (frame : InboundFrame) (rest : Bytes) : Handled :=
  let later := (c.receive frame).connection.consumeFrom rest
  { later with
    effects := .count (.frame .inbound) :: ((c.receive frame).effects ++ later.effects) }

section

variable {decoder : Decoder} {octets : Bytes} {c : Connection} {frame : InboundFrame}

/-- At a violation the speech ends. -/
theorem understands_violation (hfirst : c.closeQueued = false) (hclose : frame.opcode ≠ .close)
    (hbad : frame.isViolation = true) (rest : Bytes) (error : FrameError)
    (later : List InboundFrame) (fault : Option FrameError) :
    Understands decoder octets ⟨(c.receive frame).connection.withInput rest,
      .count (.frame .inbound) :: (c.receive frame).effects, some error⟩
      (.of (frame :: later) fault) := by
  obtain ⟨_, hreceive⟩ := receive_of_violation hbad c
  rw [Speech.of_violation hclose hbad, hreceive]
  exact ⟨rfl, rfl, .breaks hfirst⟩

/-- At a Close frame the speech ends. -/
theorem understands_close (hopen : c.closed = false)
    (hframe : (decoder.decode octets).result = .ok (some frame))
    (hdecoder : c.decoder = (decoder.decode octets).decoder) (hclose : frame.opcode = .close)
    (later : List InboundFrame) (fault : Option FrameError) :
    Understands decoder octets (c.handledFrom frame (decoder.decode octets).rest)
      (.of (frame :: later) fault) := by
  obtain ⟨-, htold, hown, hqueued⟩ := receive_of_close hopen hclose
  have hlater := consumeFrom_of_closeQueued hqueued (decoder.decode octets).rest
  obtain ⟨taken, hoctets, htaken⟩ := Decoder.drain_split hframe
  rw [Speech.of_close hclose, handledFrom, hlater]
  refine ⟨?_, ?_, ?_⟩
  · show delivered ((c.receive frame).effects ++ []) = []
    rw [List.append_nil]
    exact htold
  · show joined ((c.receive frame).effects ++ []) = [.closeReply frame.payload]
    rw [List.append_nil]
    exact hown
  · have hrest : ((c.receive frame).connection.withInput
        (decoder.decode octets).rest).input.toList = (decoder.decode octets).rest :=
      ReceiveBuffer.toList_keep (c.receive frame).connection.input _
    have hsame : (c.receive frame).connection.decoder = (decoder.decode octets).decoder :=
      (c.receive_decoder frame).trans hdecoder
    refine .closes (hrest.symm ▸ hoctets) ?_ ?_ hclose hqueued
    · show _ = Drained.mk [frame] none (c.receive frame).connection.decoder []
      rw [hsame]
      exact htaken
    · show (c.receive frame).connection.decoder.awaiting = .header
      rw [hsame]
      exact (Decoder.decode_frame hframe).1

/-- After any other frame it goes on. -/
theorem understands_goesOn (hopen : c.closed = false)
    (hframe : (decoder.decode octets).result = .ok (some frame))
    (hsupported : frame.opcode ∈ Opcode.supported) (hgoes : frame.goesOn)
    {later : List InboundFrame} {fault : Option FrameError}
    (hlater : Understands (decoder.decode octets).decoder (decoder.decode octets).rest
      ((c.receive frame).connection.consumeFrom (decoder.decode octets).rest) (.of later fault)) :
    Understands decoder octets (c.handledFrom frame (decoder.decode octets).rest)
      (.of (frame :: later) fault) := by
  obtain ⟨-, htold, hown, -⟩ := receive_of_goesOn hopen hsupported hgoes
  have hone {α : Type} (f : InboundFrame → Option α) : [frame].filterMap f = (f frame).toList := by
    cases h : f frame <;> simp [h]
  rw [Speech.of_goesOn hgoes, handledFrom]
  refine ⟨?_, ?_, hlater.heeds.cons hframe⟩
  · show delivered ((c.receive frame).effects ++ _) = _
    rw [delivered_append, hlater.told, htold, Speech.messages_after, List.map_append, hone,
      Option.toList_map]
  · show joined ((c.receive frame).effects ++ _) = _
    rw [joined_append, hlater.own, hown, Speech.answers_after, hone]

end

/-- What comes of handling some octets is told by the speech in them. -/
theorem understands_consumeFrom (c : Connection) (octets : Bytes) (hopen : c.closed = false)
    (hfirst : c.closeQueued = false)
    (hsupported : ∀ frame ∈ (c.decoder.drain octets).frames, frame.opcode ∈ Opcode.supported) :
    Understands c.decoder octets (c.consumeFrom octets) (c.decoder.drain octets).speech := by
  fun_induction consumeFrom c octets with
  | case1 c octets hends => simp [hopen, hfirst] at hends
  | case2 c octets _ decoded c' error herror =>
    rw [Decoder.drain_of_error herror]
    exact ⟨rfl, rfl, .breaks hfirst⟩
  | case3 c octets _ decoded c' hnothing =>
    have hinput : (c'.withInput decoded.rest).input.toList = decoded.rest :=
      ReceiveBuffer.toList_keep c'.input decoded.rest
    rw [Decoder.drain_of_nothing hnothing]
    refine ⟨rfl, rfl, .goesOn ?_ hfirst⟩
    rw [Decoder.drain_of_nothing hnothing, hinput]
    rfl
  | case4 c octets _ decoded c' frame hframe first error hviolation =>
    have hopen' : c'.closed = false := hopen
    rw [Decoder.drain_of_frame hframe] at hsupported ⊢
    obtain ⟨hclose, hbad⟩ :=
      isViolation_of_receive hopen' (hsupported frame List.mem_cons_self) hviolation
    exact understands_violation (c := c') hfirst hclose hbad decoded.rest error _ _
  | case5 c octets _ decoded c' frame hframe first hnone later ih =>
    have hopen' : c'.closed = false := hopen
    rw [Decoder.drain_of_frame hframe] at hsupported ⊢
    by_cases hclose : frame.opcode = .close
    · exact understands_close hopen' hframe rfl hclose _ _
    · have hgoes := goesOn_of_receive hclose hnone
      have hframe' := hsupported frame List.mem_cons_self
      obtain ⟨-, -, -, hstays, hfirst'⟩ := receive_of_goesOn hopen' hframe' hgoes
      have hdecoder : first.connection.decoder = decoded.decoder := c'.receive_decoder frame
      have hih := ih hstays (hfirst'.trans hfirst) (by
        rw [hdecoder]
        exact fun frame hmem => hsupported frame (List.mem_cons_of_mem _ hmem))
      rw [hdecoder] at hih
      exact understands_goesOn hopen' hframe hframe' hgoes hih

/-- What comes of handling the input is told by the speech in it. -/
theorem understands_consume (c : Connection) (hopen : c.closed = false)
    (hfirst : c.closeQueued = false)
    (hsupported : ∀ frame ∈ (c.decoder.drain c.input.toList).frames,
      frame.opcode ∈ Opcode.supported) :
    Understands c.decoder c.input.toList c.consume (c.decoder.drain c.input.toList).speech := by
  unfold consume
  split
  · rename_i hlack
    have hdecode := decode_of_lack_pos hlack
    have hdrain : c.decoder.drain c.input.toList = ⟨[], none, c.decoder, c.input.toList⟩ := by
      rw [Decoder.drain_of_nothing (by rw [hdecode]), hdecode]
    have hspeech : (c.decoder.drain c.input.toList).speech = ⟨[], .pending⟩ := by
      rw [hdrain]
      rfl
    rw [hspeech]
    exact ⟨rfl, rfl, .goesOn hdrain hfirst⟩
  · exact c.understands_consumeFrom c.input.toList hopen hfirst hsupported

/-! ## Going on, or not -/

/-- How a connection stands after some octets, with its reads in flight. -/
inductive Stands (decoder : Decoder) (octets : Bytes) (transport : Transport) :
    Option Connection → List Operation → Speech → Prop
  /-- It reads on, with what could not be decoded yet. -/
  | listens {c : Connection} {taken : ReceiveBuffer} {frames : List InboundFrame} :
      c.closed = false → c.closeQueued = false →
      decoder.drain octets = ⟨frames, none, c.decoder, taken.toList⟩ →
      Stands decoder octets transport (some c) [.read c.id transport taken] ⟨frames, .pending⟩
  /-- It takes no notice of what comes after the Close frame. -/
  | leaves {now : Option Connection} {frames : List InboundFrame} {close : InboundFrame}
      {upto behind : Bytes} {later : Decoder} :
      octets = upto ++ behind → decoder.drain upto = ⟨frames ++ [close], none, later, []⟩ →
      close.opcode = .close →
      (∀ c, now = some c → c.closeQueued = true ∧ c.decoder = later ∧ c.input.toList = behind) →
      Stands decoder octets transport now [] ⟨frames, .farewell close.payload⟩
  /-- It has broken off. -/
  | broken {now : Option Connection} {frames : List InboundFrame} : isOpen now = false →
      Stands decoder octets transport now [] ⟨frames, .violation⟩

/-- What comes of an input is told by a speech. -/
structure Hears (decoder : Decoder) (octets : Bytes) (transport : Transport)
    (outcome : Option Connection × List Effect) (speech : Speech) : Prop where
  told : delivered outcome.2 =
    speech.messages.map .message ++ if isOpen outcome.1 then [] else [.disconnect]
  own : joined outcome.2 = speech.answers
  stands : Stands decoder octets transport outcome.1 (reads (begun outcome.2)) speech
  lasts : speech.ending ≠ .violation → isOpen outcome.1 = true

/-- A connection reads on, or it has queued its answer to a Close frame, or it breaks off, as the
speech in its input has ended. -/
theorem hears_processed {c : Connection} {transport : Transport} {operations : List Operation}
    (hopen : c.closed = false) (hfirst : c.closeQueued = false)
    (hreader : c.reader = some transport) (hfront : c.WritesFront transport (writes operations))
    (hsupported : ∀ frame ∈ (c.decoder.drain c.input.toList).frames,
      frame.opcode ∈ Opcode.supported) :
    Hears c.decoder c.input.toList transport c.processed
      (c.decoder.drain c.input.toList).speech := by
  have hgrows := c.grows_consume
  have hwrites := reads_of_writes (hgrows.writes_begun hfront)
  have hopen' := hgrows.closed.trans hopen
  have hreader' := hgrows.reader.trans hreader
  have hid := hgrows.id
  obtain ⟨htold, hown, hheeds⟩ := c.understands_consume hopen hfirst hsupported
  generalize (c.decoder.drain c.input.toList).speech = speech at htold hown hheeds
  simp only [processed, violated]
  generalize c.consume = handled at *
  obtain ⟨c', effects, violation⟩ := handled
  dsimp only at htold hown hheeds hwrites hopen' hreader' hid ⊢
  cases hheeds with
  | @goesOn frames hdrain hfirst' =>
    have hbegin := beginRead_of_open hopen' hreader'
    rw [hfirst', if_neg (by decide)] at hbegin
    rw [hbegin]
    have hlent : c'.lentReader.closed = false := hopen'
    refine ⟨?_, ?_, ?_, fun _ => ?_⟩
    · rw [isOpen_some, hlent, delivered_append, htold, delivered_startEffect]
      rfl
    · rw [joined_append, hown, joined_startEffect, List.append_nil]
    · rw [begun_append, reads_append, hwrites]
      exact .listens (c := c'.lentReader) hlent hfirst' hdrain
    · rw [isOpen_some, hlent]
      rfl
  | @closes frames close upto hoctets hdrain hawaiting hclose hqueued =>
    have hbegin := beginRead_of_open hopen' hreader'
    rw [hqueued, if_pos rfl] at hbegin
    rw [hbegin]
    refine ⟨?_, ?_, ?_, fun _ => ?_⟩
    · rw [isOpen_some, hopen', delivered_append, htold, delivered_startEffect]
      rfl
    · rw [joined_append, hown, joined_startEffect, List.append_nil]
    · rw [begun_append, reads_append, hwrites]
      refine .leaves hoctets hdrain hclose ?_
      intro c'' hsame
      cases hsame
      exact ⟨hqueued, rfl, rfl⟩
    · rw [isOpen_some, hopen']
      rfl
  | @breaks frames error hfirst' =>
    have hend := c'.isOpen_dropped
    refine ⟨?_, ?_, ?_, absurd rfl⟩
    · rw [hend, delivered_append, htold]
      show _ ++ delivered c'.dropped.2 = _
      rw [delivered_dropped, hopen']
    · rw [joined_append, hown]
      show _ ++ joined c'.dropped.2 = _
      rw [joined_dropped, List.append_nil]
    · rw [begun_append, reads_append, hwrites]
      show Stands _ _ _ _ (reads (begun c'.dropped.2)) _
      rw [begun_dropped]
      exact .broken hend

/-! ## More octets -/

/-- A stand to what was left of octets is one to all of them. -/
theorem Stands.after {decoder later : Decoder} {octets rest more : Bytes}
    {frames : List InboundFrame} {transport : Transport} {now : Option Connection}
    {operations : List Operation} {speech : Speech}
    (hdrain : decoder.drain octets = ⟨frames, none, later, rest⟩)
    (h : Stands later (rest ++ more) transport now operations speech) :
    Stands decoder (octets ++ more) transport now operations (speech.after frames) := by
  have hresume : ∀ more, decoder.drain (octets ++ more) =
      { later.drain (rest ++ more) with
        frames := frames ++ (later.drain (rest ++ more)).frames } := by
    intro more
    rw [Decoder.drain_append, hdrain]
    rfl
  cases h with
  | @listens c taken frames' hopen hfirst hlater =>
    refine .listens hopen hfirst ?_
    rw [hresume, hlater]
  | @leaves now frames' close upto behind last hoctets hupto hclose hstays =>
    -- The Close frame is not in what was left, so what was left comes before its end.
    have hlonger : rest <+: upto := by
      have hwhole : upto <+: rest ++ more := ⟨behind, hoctets.symm⟩
      rcases List.prefix_or_prefix_of_prefix hwhole (List.prefix_append rest more) with
        hshort | hlong
      · obtain ⟨left, rfl⟩ := hshort
        have hrest := Decoder.drain_rest hdrain
        rw [Decoder.drain_append, hupto] at hrest
        simp [Drained.resume] at hrest
      · exact hlong
    obtain ⟨added, rfl⟩ := hlonger
    rw [List.append_assoc] at hoctets
    have hwhole : octets ++ more = (octets ++ added) ++ behind := by
      rw [List.append_cancel_left hoctets, List.append_assoc]
    refine .leaves hwhole ?_ hclose hstays
    rw [hresume, hupto, List.append_assoc]
  | broken hshut => exact .broken hshut

end Connection

end WebSocket
