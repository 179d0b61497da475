import WebSocket.Proofs.Session.Errands

/-!
# Queues that grow

What a connection does with its input and with messages of the application comes down to this: some
frames join its queue, the write of the first one begins if there was none in the queue, and the
application is told of messages (`Connection.Grows`).  Answers to the client, messages of the
application and whole inputs are growths (`grows_answer`, `grows_consume`).
-/

namespace WebSocket

/-- How many Close frames there are. -/
def closes (frames : List ServerFrame) : Nat := frames.countP (·.opcode == .close)

theorem closes_append (frames more : List ServerFrame) :
    closes (frames ++ more) = closes frames + closes more :=
  List.countP_append ..

def carriers (frames : List ServerFrame) : List ServerFrame :=
  frames.filter fun frame => frame.opcode == .text || frame.opcode == .binary

theorem carriers_append (frames more : List ServerFrame) :
    carriers (frames ++ more) = carriers frames ++ carriers more :=
  List.filter_append ..

theorem carriers_message (message : Message) : carriers [message.frame] = [message.frame] := by
  cases message <;> simp [carriers, Message.frame, ServerFrame.text, ServerFrame.binary]

namespace Connection

/-- Two states of a connection between which it has not closed and no read has begun or ended. -/
structure Continues (c c' : Connection) : Prop where
  id : c'.id = c.id
  peer : c'.peer = c.peer
  closed : c'.closed = c.closed
  reader : c'.reader = c.reader
  reading : c'.reading = c.reading

theorem Continues.refl (c : Connection) : c.Continues c := ⟨rfl, rfl, rfl, rfl, rfl⟩

theorem Continues.trans {c c' c'' : Connection} (h : c.Continues c') (h' : c'.Continues c'') :
    c.Continues c'' :=
  ⟨h'.id.trans h.id, h'.peer.trans h.peer, h'.closed.trans h.closed, h'.reader.trans h.reader,
    h'.reading.trans h.reading⟩

def frames (c : Connection) : List ServerFrame := c.queue.toList.map (·.frame)

/-- Whether these are the writes in flight when the first frame of the queue is to be on its way to
a stream. -/
inductive WritesFront (c : Connection) (transport : Transport) : List Operation → Prop
  | idle : c.queue.toList = [] → c.sending = false → c.writer = some transport →
      WritesFront c transport []
  | busy {outgoing : Outgoing} {later : List Outgoing} : c.queue.toList = outgoing :: later →
      c.sending = true → c.writer = none →
      WritesFront c transport [.write c.id transport outgoing]

/-- Some frames join the queue of a connection, and the application is told of messages. -/
structure Grows (c c' : Connection) (effects : List Effect) : Prop extends c.Continues c' where
  confined : Confined c.id effects
  frames : c'.frames = c.frames ++ joined effects
  closes : c'.closeQueued.toNat = c.closeQueued.toNat + closes (joined effects)
  messages : ∀ event ∈ delivered effects, ∃ message, event = .message message
  front : ∀ {transport operations}, c.WritesFront transport operations →
    c'.WritesFront transport (operations ++ begun effects)

namespace Grows

variable {c c' c'' : Connection} {effects more : List Effect}

theorem refl (c : Connection) : c.Grows c [] where
  toContinues := .refl c
  confined := .nil
  frames := (List.append_nil _).symm
  closes := rfl
  messages := nofun
  front h := by
    rw [show begun [] = [] from rfl, List.append_nil]
    exact h

theorem trans (h : c.Grows c' effects) (h' : c'.Grows c'' more) :
    c.Grows c'' (effects ++ more) where
  toContinues := h.toContinues.trans h'.toContinues
  confined := h.confined.append (h.id ▸ h'.confined)
  frames := by rw [h'.frames, h.frames, joined_append, List.append_assoc]
  closes := by
    rw [h'.closes, h.closes, joined_append, closes_append, Nat.add_assoc]
  messages event hmem := by
    rw [delivered_append, List.mem_append] at hmem
    rcases hmem with hmem | hmem
    · exact h.messages event hmem
    · exact h'.messages event hmem
  front hw := by
    rw [begun_append, ← List.append_assoc]
    exact h'.front (h.front hw)

/-- Growth goes by the queue, the halves and the flags. -/
theorem of_same (hid : c'.id = c.id) (hpeer : c'.peer = c.peer) (hclosed : c'.closed = c.closed)
    (hreader : c'.reader = c.reader) (hreading : c'.reading = c.reading)
    (hqueue : c'.queue = c.queue) (hwriter : c'.writer = c.writer)
    (hsending : c'.sending = c.sending) (hclose : c'.closeQueued = c.closeQueued) :
    c.Grows c' [] where
  toContinues := ⟨hid, hpeer, hclosed, hreader, hreading⟩
  confined := .nil
  frames := by
    rw [Connection.frames, hqueue]
    exact (List.append_nil _).symm
  closes := by rw [hclose]; rfl
  messages := nofun
  front h := by
    rw [show begun [] = [] from rfl, List.append_nil]
    cases h with
    | idle h₁ h₂ h₃ => exact .idle (hqueue ▸ h₁) (hsending.trans h₂) (hwriter.trans h₃)
    | busy h₁ h₂ h₃ => exact hid ▸ .busy (hqueue ▸ h₁) (hsending.trans h₂) (hwriter.trans h₃)

/-- What is only recorded is no growth. -/
theorem notes {effects : List Effect} (h : Notes effects) : c.Grows c effects where
  toContinues := .refl c
  confined := h.confined c.id
  frames := by rw [h.joined_eq, List.append_nil]
  closes := by rw [h.joined_eq]; rfl
  messages := by rw [h.delivered_eq]; exact nofun
  front hw := by rwa [h.begun_eq, List.append_nil]

end Grows

/-! ## Answers -/

theorem confined_startEffect {id : ConnectionId} {operation : Option Operation}
    (h : ∀ o ∈ operation, o.id = id) : Confined id (startEffect operation) := by
  cases operation with
  | none => exact .nil
  | some o => exact .cons (h o rfl) .nil

theorem confined_beginWrite (c : Connection) : Confined c.id (startEffect c.beginWrite.2) := by
  apply confined_startEffect
  intro o ho
  unfold beginWrite at ho
  split at ho
  · cases ho
  · split at ho
    · cases ho
      rfl
    · cases ho

theorem confined_answer (c : Connection) (outgoing : Outgoing) :
    Confined c.id (c.answer outgoing).2 := by
  simp only [answer, sendFrame]
  split
  · exact .nil
  · split
    · exact .cons rfl (confined_beginWrite { c with queue := c.queue.push outgoing })
    · exact .cons rfl .nil

theorem continues_beginWrite (c : Connection) : c.Continues c.beginWrite.1 := by
  unfold beginWrite
  split
  · exact .refl c
  · split
    · exact ⟨rfl, rfl, rfl, rfl, rfl⟩
    · exact .refl c

theorem continues_answer (c : Connection) (outgoing : Outgoing) :
    c.Continues (c.answer outgoing).1 := by
  have hpush : c.Continues { c with queue := c.queue.push outgoing } := ⟨rfl, rfl, rfl, rfl, rfl⟩
  simp only [answer, sendFrame]
  split
  · exact .refl c
  · split
    · exact hpush.trans (continues_beginWrite _)
    · exact hpush

theorem answer_of_closed {c : Connection} (h : c.closed = true) (outgoing : Outgoing) :
    c.answer outgoing = (c, []) := by
  simp [answer, sendFrame, h, startEffect]

/-- To write the first frame of the queue, when no write is in flight. -/
theorem writesFront_beginWrite {c : Connection} {transport : Transport} (hopen : c.closed = false)
    (hsending : c.sending = false) (hwriter : c.writer = some transport) :
    c.beginWrite.1.WritesFront transport c.beginWrite.2.toList := by
  unfold beginWrite
  rw [hopen, hsending, Fifo.head?_eq, hwriter]
  cases hqueue : c.queue.toList with
  | nil => exact .idle hqueue hsending hwriter
  | cons outgoing later => exact .busy hqueue rfl rfl

theorem queue_beginWrite (c : Connection) : c.beginWrite.1.queue = c.queue := by
  unfold beginWrite
  split
  · rfl
  · split <;> rfl

theorem closeQueued_beginWrite (c : Connection) :
    c.beginWrite.1.closeQueued = c.closeQueued := by
  unfold beginWrite
  split
  · rfl
  · split <;> rfl

def pushed (c : Connection) (outgoing : Outgoing) : Connection :=
  { c with queue := c.queue.push outgoing }

theorem answer_of_open {c : Connection} (h : c.closed = false) (outgoing : Outgoing) :
    c.answer outgoing =
      if c.queue.toList = [] then
        ((c.pushed outgoing).beginWrite.1,
          .queued c.id outgoing.frame :: startEffect (c.pushed outgoing).beginWrite.2)
      else (c.pushed outgoing, [.queued c.id outgoing.frame]) := by
  have hsize : (c.queue.push outgoing).size = 1 ↔ c.queue.toList = [] := by
    rw [Fifo.size_eq_length, Fifo.toList_push]
    simp
  simp only [answer, sendFrame, hsize]
  rw [if_neg (by simp [h])]
  split
  · rfl
  · rfl

theorem queue_answer {c : Connection} (h : c.closed = false) (outgoing : Outgoing) :
    (c.answer outgoing).1.queue = c.queue.push outgoing := by
  rw [answer_of_open h]
  split
  · exact queue_beginWrite _
  · rfl

theorem closeQueued_answer (c : Connection) (outgoing : Outgoing) :
    (c.answer outgoing).1.closeQueued = c.closeQueued := by
  cases h : c.closed with
  | true => rw [answer_of_closed h]
  | false =>
    rw [answer_of_open h]
    split
    · exact closeQueued_beginWrite _
    · rfl

theorem joined_answer {c : Connection} (h : c.closed = false) (outgoing : Outgoing) :
    joined (c.answer outgoing).2 = [outgoing.frame] := by
  rw [answer_of_open h]
  split
  · exact congrArg (outgoing.frame :: ·) (joined_startEffect _)
  · rfl

theorem delivered_answer (c : Connection) (outgoing : Outgoing) :
    delivered (c.answer outgoing).2 = [] := by
  cases h : c.closed with
  | true => rw [answer_of_closed h]; rfl
  | false =>
    rw [answer_of_open h]
    split
    · exact delivered_startEffect _
    · rfl

/-- A frame joins the queue, and its write begins if it is alone there. -/
theorem writesFront_answer {c : Connection} {transport : Transport} {operations : List Operation}
    (hopen : c.closed = false) (h : c.WritesFront transport operations) (outgoing : Outgoing) :
    (c.answer outgoing).1.WritesFront transport (operations ++ begun (c.answer outgoing).2) := by
  rw [answer_of_open hopen]
  cases h with
  | idle hqueue hsending hwriter =>
    rw [if_pos hqueue]
    show (c.pushed outgoing).beginWrite.1.WritesFront transport
      (begun (startEffect (c.pushed outgoing).beginWrite.2))
    rw [begun_startEffect]
    exact writesFront_beginWrite (c := c.pushed outgoing) hopen hsending hwriter
  | @busy front later hqueue hsending hwriter =>
    rw [if_neg (by simp [hqueue])]
    have hfront : (c.pushed outgoing).queue.toList = front :: (later ++ [outgoing]) := by
      rw [pushed, Fifo.toList_push, hqueue, List.cons_append]
    exact .busy (c := c.pushed outgoing) hfront hsending hwriter

/-- A connection takes a frame that is no Close frame. -/
theorem grows_answer (c : Connection) {outgoing : Outgoing} (h : outgoing.frame.opcode ≠ .close) :
    c.Grows (c.answer outgoing).1 (c.answer outgoing).2 := by
  cases hclosed : c.closed with
  | true =>
    rw [answer_of_closed hclosed]
    exact .refl c
  | false =>
    exact {
      toContinues := continues_answer c outgoing
      confined := confined_answer c outgoing
      frames := by
        rw [frames, queue_answer hclosed, Fifo.toList_push, joined_answer hclosed]
        simp [frames]
      closes := by
        rw [closeQueued_answer, joined_answer hclosed]
        simp [WebSocket.closes, h]
      messages := by
        rw [delivered_answer]
        exact nofun
      front := fun hw => writesFront_answer hclosed hw outgoing }

/-- An open connection answers a Close frame, the first time. -/
theorem grows_closing {c : Connection} {outgoing : Outgoing} (hopen : c.closed = false)
    (hfirst : c.closeQueued = false) (h : outgoing.frame.opcode = .close) :
    c.Grows (c.markClosing.answer outgoing).1 (c.markClosing.answer outgoing).2 := by
  have hopen' : c.markClosing.closed = false := hopen
  have hmark : c.Continues c.markClosing := ⟨rfl, rfl, rfl, rfl, rfl⟩
  exact {
    toContinues := hmark.trans (continues_answer c.markClosing outgoing)
    confined := confined_answer c.markClosing outgoing
    frames := by
      rw [frames, queue_answer hopen', Fifo.toList_push, joined_answer hopen']
      simp [frames, markClosing]
    closes := by
      rw [closeQueued_answer, joined_answer hopen', hfirst]
      simp [WebSocket.closes, h, markClosing]
    messages := by
      rw [delivered_answer]
      exact nofun
    front := by
      intro transport operations hw
      have hw' : c.markClosing.WritesFront transport operations := by
        cases hw with
        | idle h₁ h₂ h₃ => exact .idle h₁ h₂ h₃
        | busy h₁ h₂ h₃ => exact .busy (c := c.markClosing) h₁ h₂ h₃
      exact writesFront_answer hopen' hw' outgoing }

/-! ## Input -/

theorem grows_withInput (c : Connection) (rest : Bytes) : c.Grows (c.withInput rest) [] :=
  .of_same rfl rfl rfl rfl rfl rfl rfl rfl rfl

theorem grows_receive {c : Connection} (hopen : c.closed = false) (hfirst : c.closeQueued = false)
    (frame : InboundFrame) : c.Grows (c.receive frame).connection (c.receive frame).effects := by
  have htold (message : Message) : c.Grows c [.deliver c.id (.message message)] := {
    toContinues := .refl c
    confined := .cons rfl .nil
    frames := (List.append_nil _).symm
    closes := rfl
    messages := by
      intro event hmem
      exact ⟨message, List.mem_singleton.mp hmem⟩
    front := by
      intro transport operations h
      rw [show begun [_] = [] from rfl, List.append_nil]
      exact h }
  unfold receive
  split
  · split
    · exact htold _
    · exact .refl c
  · exact htold _
  · exact grows_answer c (by simp)
  · exact .refl c
  · exact grows_closing hopen hfirst rfl
  · exact .refl c

/-- One frame is handled with the decoder that it leaves behind. -/
theorem grows_first {c : Connection} (h : ¬(c.closed || c.closeQueued) = true) (decoder : Decoder)
    (frame : InboundFrame) :
    let first := { c with decoder := decoder }.receive frame
    c.Grows first.connection (.count (.frame .inbound) :: first.effects) := by
  intro first
  have hflags : c.closed = false ∧ c.closeQueued = false := by simpa using h
  have hdecoded : c.Grows { c with decoder := decoder } [] :=
    .of_same rfl rfl rfl rfl rfl rfl rfl rfl rfl
  have hframe : Grows { c with decoder := decoder } first.connection first.effects :=
    grows_receive (c := { c with decoder := decoder }) hflags.1 hflags.2 frame
  exact hdecoded.trans (.trans (.notes (.cons rfl .nil)) hframe)

theorem grows_consumeFrom (c : Connection) (octets : Bytes) :
    c.Grows (c.consumeFrom octets).connection (c.consumeFrom octets).effects := by
  fun_induction consumeFrom c octets with
  | case1 c octets => exact grows_withInput c octets
  | case2 c octets _ decoded c' =>
    exact .of_same rfl rfl rfl rfl rfl rfl rfl rfl rfl
  | case3 c octets _ decoded c' =>
    exact .of_same rfl rfl rfl rfl rfl rfl rfl rfl rfl
  | case4 c octets hgoes decoded c' frame _ first _ _ =>
    have hfirst := grows_first hgoes decoded.decoder frame
    have hrest := grows_withInput first.connection decoded.rest
    simpa using hfirst.trans hrest
  -- The first frame is a growth by itself, and what comes of the others starts from there.
  | case5 c octets hgoes decoded c' frame _ first _ later ih =>
    exact (grows_first hgoes decoded.decoder frame).trans ih

theorem grows_consume (c : Connection) : c.Grows c.consume.connection c.consume.effects := by
  unfold consume
  split
  · exact .of_same rfl rfl rfl rfl rfl rfl rfl rfl rfl
  · exact grows_consumeFrom c _

/-! ## Answers to the input -/

theorem carriers_receive (c : Connection) (frame : InboundFrame) :
    carriers (joined (c.receive frame).effects) = [] := by
  have hanswer (c : Connection) {outgoing : Outgoing} (h : carriers [outgoing.frame] = []) :
      carriers (joined (c.answer outgoing).2) = [] := by
    cases hclosed : c.closed with
    | true => rw [answer_of_closed hclosed]; rfl
    | false => rw [joined_answer hclosed, h]
  unfold receive
  split
  · split <;> rfl
  · rfl
  · exact hanswer c rfl
  · rfl
  · exact hanswer c.markClosing rfl
  · rfl

theorem carriers_consumeFrom (c : Connection) (octets : Bytes) :
    carriers (joined (c.consumeFrom octets).effects) = [] := by
  fun_induction consumeFrom c octets with
  | case1 => rfl
  | case2 => rfl
  | case3 => rfl
  | case4 c octets _ decoded c' frame _ first _ _ => exact carriers_receive c' frame
  | case5 c octets _ decoded c' frame _ first _ later ih =>
    show carriers (joined (first.effects ++ later.effects)) = []
    rw [joined_append, carriers_append, ih, List.append_nil]
    exact carriers_receive c' frame

/-- The input brings no message into the queue. -/
theorem carriers_consume (c : Connection) : carriers (joined c.consume.effects) = [] := by
  unfold consume
  split
  · rfl
  · exact carriers_consumeFrom c _

end Connection

end WebSocket
