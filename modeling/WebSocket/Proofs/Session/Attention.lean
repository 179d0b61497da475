import WebSocket.Proofs.Session.Conveyance
import WebSocket.Proofs.Session.Hearing
import WebSocket.Proofs.Session.Succession

/-!
# Connections that listen

By any point of its life a connection has heard some octets of its client.  As long as nothing but
the client ends its session, the speech in these octets settles what the application has been told,
which frames the engine has queued of its own accord, and whether the connection reads on
(`Life.Heeds`).  Otherwise the connection is closed and no Close frame was ever queued for it
(`Life.Severed`).  There is no third way (`LivedBy.attends`).
-/

namespace WebSocket

/-- The frames that the engine queues of its own accord. -/
def replies (frames : List ServerFrame) : List ServerFrame :=
  frames.filter fun frame => !(frame.opcode == .text || frame.opcode == .binary)

theorem replies_append (frames more : List ServerFrame) :
    replies (frames ++ more) = replies frames ++ replies more :=
  List.filter_append ..

theorem replies_message (message : Message) : replies [message.frame] = [] := by
  cases message <;> simp [replies, Message.frame, ServerFrame.text, ServerFrame.binary]

/-- All answers to a speech are the engine's own. -/
theorem replies_answers (speech : Speech) : replies speech.answers = speech.answers := by
  rw [replies, List.filter_eq_self]
  intro frame hmem
  rw [Speech.answers, List.mem_append] at hmem
  rcases hmem with hmem | hmem
  · obtain ⟨ping, -, hpong⟩ := List.mem_filterMap.mp hmem
    rw [InboundFrame.opcode_of_pong? hpong]
    rfl
  · split at hmem
    · rw [List.mem_singleton] at hmem
      rw [hmem]
      rfl
    · cases hmem

/-- Whether the errand leaves it to the client to end the session. -/
def Errand.Spares : Errand → Prop
  | .read _ _ (.ok n) => n ≠ 0
  | .write _ (.ok ()) | .send .. => True
  | .read _ _ (.error _) | .write _ (.error _) | .drop => False

instance : (errand : Errand) → Decidable errand.Spares
  | .read _ _ (.ok _) => inferInstanceAs (Decidable (_ ≠ _))
  | .write _ (.ok ()) | .send .. => inferInstanceAs (Decidable True)
  | .read _ _ (.error _) | .write _ (.error _) | .drop => inferInstanceAs (Decidable False)

/-! ## Errands without input -/

namespace Connection

/-- Two states of a connection between which no input was handled. -/
structure Keeps (c c' : Connection) : Prop where
  id : c'.id = c.id
  closeQueued : c'.closeQueued = c.closeQueued
  decoder : c'.decoder = c.decoder
  input : c'.input = c.input

theorem Keeps.trans {c c' c'' : Connection} (h : c.Keeps c') (h' : c'.Keeps c'') : c.Keeps c'' :=
  ⟨h'.id.trans h.id, h'.closeQueued.trans h.closeQueued, h'.decoder.trans h.decoder,
    h'.input.trans h.input⟩

theorem keeps_beginWrite (c : Connection) : c.Keeps c.beginWrite.1 := by
  unfold beginWrite
  split
  · exact ⟨rfl, rfl, rfl, rfl⟩
  · split <;> exact ⟨rfl, rfl, rfl, rfl⟩

theorem keeps_finishWrite (c : Connection) (writer : Transport) :
    c.Keeps (c.finishWrite writer).1 := by
  simp only [finishWrite]
  split
  · exact ⟨rfl, rfl, rfl, rfl⟩
  · split <;> exact ⟨rfl, rfl, rfl, rfl⟩

theorem keeps_answer (c : Connection) (outgoing : Outgoing) : c.Keeps (c.answer outgoing).1 := by
  have hpush : c.Keeps (c.pushed outgoing) := ⟨rfl, rfl, rfl, rfl⟩
  cases hclosed : c.closed with
  | true =>
    rw [answer_of_closed hclosed]
    exact ⟨rfl, rfl, rfl, rfl⟩
  | false =>
    rw [answer_of_open hclosed]
    split
    · exact hpush.trans (keeps_beginWrite _)
    · exact hpush

theorem keeps_dropped {c c' : Connection} (h : c.dropped.1 = some c') : c.Keeps c' := by
  have hclose : c.Keeps c.close.1 := by
    unfold close
    split <;> exact ⟨rfl, rfl, rfl, rfl⟩
  simp only [dropped] at h
  split at h
  · cases h
  · cases h
    exact hclose

/-- No errand but the end of a read handles input. -/
theorem keeps_attend {c c' : Connection} {errand : Errand} (hother : errand.isRead = false)
    (h : (c.attend errand).1 = some c') : c.Keeps c' := by
  cases errand with
  | read => cases hother
  | write writer result =>
    have hkeeps := c.keeps_finishWrite writer
    simp only [attend] at h
    split at h
    · exact hkeeps.trans (keeps_dropped h)
    · cases result with
      | error fault => exact hkeeps.trans (keeps_dropped h)
      | ok =>
        simp only [wrote] at h
        split at h
        · exact hkeeps.trans (keeps_dropped h)
        · cases h
          exact hkeeps.trans (keeps_beginWrite _)
  | send message loan =>
    cases h
    exact c.keeps_answer _
  | drop => exact keeps_dropped h

theorem reads_beginWrite (c : Connection) : reads c.beginWrite.2.toList = [] := by
  unfold beginWrite
  split
  · rfl
  · split <;> rfl

theorem reads_answer (c : Connection) (outgoing : Outgoing) :
    reads (begun (c.answer outgoing).2) = [] := by
  cases hclosed : c.closed with
  | true =>
    rw [answer_of_closed hclosed]
    rfl
  | false =>
    rw [answer_of_open hclosed]
    split
    · show reads (begun (startEffect _)) = []
      rw [begun_startEffect, reads_beginWrite]
    · rfl

/-- What comes of an errand that brings no input to an open connection. -/
inductive Aside (c : Connection) : Errand → Option Connection × List Effect → Prop
  /-- It stays open, and no read begins. -/
  | stays {errand : Errand} {c' : Connection} {effects : List Effect} : c'.closed = false →
      delivered effects = [] → replies (joined effects) = [] → reads (begun effects) = [] →
      Aside c errand (some c', effects)
  /-- It closes. -/
  | ends {errand : Errand} {outcome : Option Connection × List Effect} :
      isOpen outcome.1 = false → delivered outcome.2 = [.disconnect] → joined outcome.2 = [] →
      begun outcome.2 = [] →
      (errand.Spares → ∃ writer frame, errand = .write writer (.ok ()) ∧
        c.frames.head? = some frame ∧ frame.opcode = .close) →
      Aside c errand outcome

theorem aside_dropped {c c' : Connection} {errand : Errand} (hopen : c'.closed = false)
    {notes : List Effect} (hnotes : Notes notes)
    (hcause : errand.Spares → ∃ writer frame, errand = .write writer (.ok ()) ∧
      c.frames.head? = some frame ∧ frame.opcode = .close) :
    c.Aside errand (c'.dropped.1, notes ++ c'.dropped.2) := by
  refine .ends c'.isOpen_dropped ?_ ?_ ?_ hcause
  · show delivered (notes ++ c'.dropped.2) = _
    rw [delivered_append, hnotes.delivered_eq, delivered_dropped, hopen]
    rfl
  · show joined (notes ++ c'.dropped.2) = _
    rw [joined_append, hnotes.joined_eq, joined_dropped]
    rfl
  · show begun (notes ++ c'.dropped.2) = _
    rw [begun_append, hnotes.begun_eq, begun_dropped]
    rfl

/-- An errand that brings no input leaves an open connection as it is, or it closes it. -/
theorem aside_attend {c : Connection} (hopen : c.closed = false) {errand : Errand}
    (hother : errand.isRead = false) : c.Aside errand (c.attend errand) := by
  cases errand with
  | read => cases hother
  | write writer result =>
    have hopen' := (c.continues_finishWrite writer).closed.trans hopen
    obtain ⟨hwritten, -⟩ := frames_finishWrite hopen writer
    simp only [attend, hopen', Bool.false_eq_true, if_false]
    cases result with
    | error fault =>
      have hnotes : Notes [.report (.writeFailed (c.finishWrite writer).1.id fault),
          .count (.error .io)] := .cons rfl (.cons rfl .nil)
      exact aside_dropped hopen' hnotes False.elim
    | ok =>
      simp only [wrote]
      split
      · rename_i hclose
        have hnotes : Notes [.count (.frame .outbound)] := .cons rfl .nil
        refine aside_dropped hopen' hnotes fun _ => ?_
        rw [hwritten, Option.any_eq_true] at hclose
        obtain ⟨frame, hframe, hclose⟩ := hclose
        exact ⟨writer, frame, rfl, hframe, eq_of_beq hclose⟩
      · refine .stays ((continues_beginWrite _).closed.trans hopen') ?_ ?_ ?_
        · exact delivered_startEffect _
        · show replies (joined (startEffect _)) = []
          rw [joined_startEffect]
          rfl
        · show reads (begun (startEffect _)) = []
          rw [begun_startEffect, reads_beginWrite]
  | send message loan =>
    have hown : replies (joined (c.answer ⟨message.frame, loan⟩).2) = [] := by
      rw [joined_answer hopen]
      exact replies_message message
    exact .stays ((c.continues_answer _).closed.trans hopen) (delivered_answer _ _) hown
      (reads_answer _ _)
  | drop => exact aside_dropped hopen .nil False.elim

/-- Nothing is told of a closed connection. -/
theorem delivered_attend_of_closed {c : Connection} (h : c.closed = true) (errand : Errand) :
    delivered (c.attend errand).2 = [] := by
  rw [← (c.confined_attend errand).delivered_effectsOn, (still_of_closed h errand).2]
  rfl

/-! ## Errands with input -/

/-- A read that was not in vain is followed by handling the input. -/
theorem attend_of_spared_read {c : Connection} (hopen : c.closed = false) {reader : Transport}
    {input : ReceiveBuffer} {result : Except Fault Nat}
    (h : (Errand.read reader input result).Spares) :
    c.attend (.read reader input result) = (c.finishRead reader input).processed ∧
      ∃ n, result = .ok n := by
  have hopen' : (c.finishRead reader input).closed = false := hopen
  simp only [attend, hopen', Bool.false_eq_true, if_false]
  cases result with
  | error fault => exact False.elim h
  | ok n =>
    cases n with
    | zero => exact absurd rfl h
    | succ n => exact ⟨rfl, n + 1, rfl⟩

/-- A read that was in vain ends the session. -/
theorem attend_of_vain_read {c : Connection} (hopen : c.closed = false) {reader : Transport}
    {input : ReceiveBuffer} {result : Except Fault Nat}
    (h : ¬ (Errand.read reader input result).Spares) :
    isOpen (c.attend (.read reader input result)).1 = false ∧
      joined (c.attend (.read reader input result)).2 = [] := by
  have hopen' : (c.finishRead reader input).closed = false := hopen
  simp only [attend, hopen', Bool.false_eq_true, if_false]
  cases result with
  | error fault => exact ⟨isOpen_dropped _, joined_dropped _⟩
  | ok n =>
    cases n with
    | zero => exact ⟨isOpen_dropped _, joined_dropped _⟩
    | succ n => exact absurd (Nat.succ_ne_zero n) h

/-- An open connection whose octets are no whole speech hears what more octets add to it. -/
theorem hears_more {c : Connection} {limit : Nat} {octets rest more : Bytes}
    {frames : List InboundFrame} {transport : Transport} {operations : List Operation}
    (hopen : c.closed = false) (hfirst : c.closeQueued = false)
    (hreader : c.reader = some transport) (hfront : c.WritesFront transport (writes operations))
    (hdrain : (Decoder.new limit).drain octets = ⟨frames, none, c.decoder, rest⟩)
    (hpending : (speech limit octets).ending = .pending)
    (hinput : c.input.toList = rest ++ more) :
    speech limit (octets ++ more) = (c.decoder.drain c.input.toList).speech.after frames ∧
      Hears c.decoder c.input.toList transport c.processed
        (c.decoder.drain c.input.toList).speech := by
  have hmore : (Decoder.new limit).drain (octets ++ more) =
      { c.decoder.drain (rest ++ more) with
        frames := frames ++ (c.decoder.drain (rest ++ more)).frames } := by
    rw [Decoder.drain_append, hdrain]
    rfl
  have hsupported : ∀ frame ∈ (c.decoder.drain c.input.toList).frames,
      frame.opcode ∈ Opcode.supported := by
    intro frame hframe
    have hmem : frame ∈ ((Decoder.new limit).drain (octets ++ more)).frames := by
      rw [hmore, ← hinput]
      exact List.mem_append_right _ hframe
    exact Decoder.drain_supported rfl frame hmem
  refine ⟨?_, hears_processed hopen hfirst hreader hfront hsupported⟩
  rw [hinput]
  exact speech_append_of_pending hdrain hpending more

namespace Stands

variable {decoder : Decoder} {octets : Bytes} {transport : Transport}
  {now later : Option Connection} {operations : List Operation} {speech : Speech}

/-- A connection that keeps its input stands as before. -/
theorem keeps {c c' : Connection} (h : Stands decoder octets transport (some c) operations speech)
    (hkeeps : c.Keeps c') (hclosed : c'.closed = c.closed) :
    Stands decoder octets transport (some c') operations speech := by
  cases h with
  | listens hopen hfirst hdrain =>
    rw [← hkeeps.id]
    refine .listens (hclosed.trans hopen) (hkeeps.closeQueued.trans hfirst) ?_
    rw [hkeeps.decoder]
    exact hdrain
  | leaves hoctets hdrain hclose hstays =>
    refine .leaves hoctets hdrain hclose fun c'' hsame => ?_
    cases hsame
    obtain ⟨hqueued, hdecoder, hinput⟩ := hstays c rfl
    rw [hkeeps.closeQueued, hkeeps.decoder, hkeeps.input]
    exact ⟨hqueued, hdecoder, hinput⟩
  | broken hshut =>
    refine .broken ?_
    rw [isOpen_some, hclosed]
    exact hshut

/-- One that reads nothing may close. -/
theorem shuts (h : Stands decoder octets transport now [] speech)
    (hkeeps : ∀ c', later = some c' → ∃ c, now = some c ∧ c.Keeps c')
    (hshut : isOpen later = false) : Stands decoder octets transport later [] speech := by
  cases h with
  | leaves hoctets hdrain hclose hstays =>
    refine .leaves hoctets hdrain hclose fun c' hlater => ?_
    obtain ⟨c, hnow, hkeeps⟩ := hkeeps c' hlater
    rw [hkeeps.closeQueued, hkeeps.decoder, hkeeps.input]
    exact hstays c hnow
  | broken => exact .broken hshut

/-- One that has closed reads nothing. -/
theorem reads_eq_nil (h : Stands decoder octets transport now operations speech)
    (hshut : isOpen now = false) : operations = [] := by
  cases h with
  | listens hopen =>
    rw [isOpen_some, hopen] at hshut
    cases hshut
  | leaves => rfl
  | broken => rfl

end Stands

end Connection

/-! ## Lives -/

/-- After the end of a write no frame is being written. -/
theorem Connection.Sound.framesOf_eraseP {c : Connection} {transport : Transport}
    {operations : List Operation} (h : c.Sound transport operations) {writer : Transport}
    {result : Except Fault Unit}
    (hend : (Errand.write writer result).isEnd →
      ∃ o ∈ operations, (Errand.write writer result).ends o) :
    framesOf (operations.eraseP (Errand.write writer result).ends) = [] := by
  obtain ⟨hnone, -⟩ := (h.returned hend).2.of_not_sending (c.sending_finishWrite writer)
  rw [← framesOf_writes, hnone]
  rfl

/-- When a Close frame comes first in the queue, it is the one whose write has begun. -/
theorem Connection.Ledger.closes_begun {c : Connection} {effects : List Effect}
    (h : c.Ledger effects) {frame : ServerFrame} (hhead : c.frames.head? = some frame)
    (hclose : frame.opcode = .close) : WebSocket.closes (framesOf (begun effects)) = 1 := by
  obtain ⟨earlier, hbegun, hnone⟩ := h.front
  rw [hbegun, closes_append, hnone, List.take_one, hhead, Option.toList_some, WebSocket.closes,
    List.countP_singleton, if_pos (beq_iff_eq.mpr hclose)]

/-- No errand but the end of a read ends one. -/
theorem Errand.reads_eraseP_of_not_read {errand : Errand} (hother : errand.isRead = false)
    (operations : List Operation) : reads (operations.eraseP errand.ends) = reads operations := by
  cases errand with
  | read => cases hother
  | write writer result => exact reads_eraseP_write writer result
  | send => rw [eraseP_of_not_end rfl]
  | drop => rw [eraseP_of_not_end rfl]

/-- Nothing is read once the answer to a Close frame is on its way. -/
theorem Connection.Sound.reads_eq_nil {c : Connection} {transport : Transport}
    {operations : List Operation} (h : c.Sound transport operations) (hopen : c.closed = false)
    (hqueued : c.closeQueued = true) : reads operations = [] := by
  have hreading := h.reading hopen
  rw [hqueued] at hreading
  exact (h.reader.of_not_reading hreading).1

/-- A Close frame comes first in the queue only when the answer to a Close frame is on its way. -/
theorem Connection.Sound.closeQueued_of_head {c : Connection} {transport : Transport}
    {operations : List Operation} (h : c.Sound transport operations) (hopen : c.closed = false)
    {frame : ServerFrame} (hhead : c.frames.head? = some frame) (hclose : frame.opcode = .close) :
    c.closeQueued = true := by
  have hpos : 0 < WebSocket.closes c.frames :=
    List.countP_pos_iff.mpr ⟨frame, List.mem_of_mem_head? hhead, by simp [hclose]⟩
  rw [h.closes hopen] at hpos
  cases hqueued : c.closeQueued with
  | true => rfl
  | false =>
    rw [hqueued] at hpos
    cases hpos

/-- A read comes to its end only if it is in flight. -/
theorem Life.Admits.isRead_eq_false {l : Life} {errand : Errand} (h : l.Admits errand)
    (hnone : reads l.inFlight = []) : errand.isRead = false := by
  cases errand with
  | read reader input result =>
    obtain ⟨o, hmem, hends⟩ := h rfl
    cases o with
    | write => cases hends
    | read =>
      rw [reads, List.filter_eq_nil_iff] at hnone
      exact absurd rfl (hnone _ hmem)
  | _ => rfl

/-- The end of a read is that of the one read in flight. -/
theorem Life.Admits.of_reads {l : Life} {errand : Errand} (h : l.Admits errand)
    (hread : errand.isRead = true) {id : ConnectionId} {transport : Transport}
    {taken : ReceiveBuffer} (hreads : reads l.inFlight = [.read id transport taken]) :
    ∃ input result, errand = .read transport input result ∧
      errand.ends (.read id transport taken) = true ∧
      reads (l.inFlight.eraseP errand.ends) = [] := by
  cases errand with
  | read reader input result =>
    obtain ⟨o, hmem, hends⟩ := h rfl
    cases o with
    | write => cases hends
    | read other taker taken' =>
      have hmem' : .read other taker taken' ∈ reads l.inFlight := List.mem_filter.mpr ⟨hmem, rfl⟩
      rw [hreads, List.mem_singleton] at hmem'
      cases hmem'
      obtain rfl : reader = transport := by simpa [Errand.ends] using hends
      refine ⟨input, result, rfl, hends, ?_⟩
      rw [Errand.reads_eraseP_read, hreads, List.eraseP_cons_of_pos hends]
  | _ => cases hread

/-- A Close frame has been written: its write has begun, and it is not in flight any more. -/
def Life.HasParted (l : Life) : Prop :=
  closes (framesOf l.inFlight) < closes (framesOf (begun l.effects))

/-- The session has gone as the octets of the client say. -/
structure Life.Heeds (limit : Nat) (transport : Transport) (octets : Bytes) (errands : List Errand)
    (l : Life) : Prop where
  told : delivered l.effects = .newConnection :: ((speech limit octets).messages.map .message ++
    if isOpen l.now then [] else [.disconnect])
  own : replies (joined l.effects) = (speech limit octets).answers
  stands : Connection.Stands (.new limit) octets transport l.now (reads l.inFlight)
    (speech limit octets)
  ended : isOpen l.now = false → (speech limit octets).ending = .violation ∨ l.HasParted ∨
    ∃ errand ∈ errands, ¬ errand.Spares

/-- The session was ended before the client said a Close frame or broke a rule. -/
structure Life.Severed (errands : List Errand) (l : Life) : Prop where
  shut : isOpen l.now = false
  closes : closes (joined l.effects) = 0
  cause : ∃ errand ∈ errands, ¬ errand.Spares

namespace Lived

variable {id : ConnectionId} {transport : Transport} {peer : Option SocketAddress}
  {leftover : ReceiveBuffer} {limit : Nat} {l : Life} {errands : List Errand} {errand : Errand}

/-- No errand but the end of a read handles input. -/
theorem keeps_after (h : Lived (.new id transport peer leftover limit) l)
    (hother : errand.isRead = false) {c' : Connection} (hafter : (l.after errand).now = some c') :
    ∃ c, l.now = some c ∧ c.Keeps c' := by
  cases hnow : l.now with
  | none =>
    rw [h.after_gone hnow, hnow] at hafter
    cases hafter
  | some c =>
    rw [Life.after_of_now hnow] at hafter
    exact ⟨c, rfl, Connection.keeps_attend hother hafter⟩

/-- After the end of a session nothing comes of any errand. -/
theorem after_shut (h : Lived (.new id transport peer leftover limit) l)
    (hshut : isOpen l.now = false) (errand : Errand) :
    isOpen (l.after errand).now = false ∧
      delivered (l.after errand).effects = delivered l.effects ∧
      joined (l.after errand).effects = joined l.effects ∧
      begun (l.after errand).effects = begun l.effects ∧
      (l.after errand).inFlight = l.inFlight.eraseP errand.ends := by
  cases hnow : l.now with
  | none =>
    have hsettled := h.settled
    rw [hnow] at hsettled
    have hnone : l.inFlight = [] := hsettled
    rw [h.after_gone hnow, hnow, hnone]
    exact ⟨rfl, rfl, rfl, rfl, rfl⟩
  | some c =>
    rw [hnow, isOpen_some, Bool.not_eq_false'] at hshut
    obtain ⟨hbegun, hjoined, hshut'⟩ := Connection.attend_of_closed hshut errand
    rw [Life.after_of_now hnow]
    refine ⟨hshut', ?_, ?_, ?_, ?_⟩
    · rw [delivered_append, Connection.delivered_attend_of_closed hshut, List.append_nil]
    · rw [joined_append, hjoined, List.append_nil]
    · rw [begun_append, hbegun, List.append_nil]
    · rw [hbegun, List.append_nil]

/-- A session that has ended stays as it was. -/
theorem heeds_shut (h : Lived (.new id transport peer leftover limit) l) {octets : Bytes}
    (hshut : isOpen l.now = false) (hadmits : l.Admits errand)
    (hheeds : l.Heeds limit transport octets errands) :
    (l.after errand).Heeds limit transport (octets ++ errand.octets) (errands ++ [errand]) := by
  obtain ⟨hshut', htold, hown, hbegun, hflight⟩ := h.after_shut hshut errand
  obtain ⟨htold', hown', hstands, hended⟩ := hheeds
  have hnone := hstands.reads_eq_nil hshut
  have hother := hadmits.isRead_eq_false hnone
  rw [Errand.octets_of_not_read hother, List.append_nil]
  refine ⟨?_, ?_, ?_, fun _ => ?_⟩
  · rw [htold, htold', hshut, hshut']
  · rw [hown, hown']
  · rw [hflight, Errand.reads_eraseP_of_not_read hother, hnone]
    rw [hnone] at hstands
    exact hstands.shuts (fun _ => h.keeps_after hother) hshut'
  · refine (hended hshut).imp_right (.imp (fun hparted => ?_) fun ⟨cause, hmem, hcause⟩ => ?_)
    · have hsub : (framesOf (l.inFlight.eraseP errand.ends)).Sublist (framesOf l.inFlight) :=
        (List.eraseP_sublist ..).filterMap _
      rw [Life.HasParted, hflight, hbegun]
      exact Nat.lt_of_le_of_lt hsub.countP_le hparted
    · exact ⟨cause, List.mem_append_left _ hmem, hcause⟩

/-- The end of the write of a Close frame leaves it written, if nothing begins with it. -/
theorem hasParted_after (h : Lived (.new id transport peer leftover limit) l) {c : Connection}
    (hnow : l.now = some c) (hopen : c.closed = false) {writer : Transport}
    {result : Except Fault Unit} (hadmits : l.Admits (.write writer result)) {frame : ServerFrame}
    (hhead : c.frames.head? = some frame) (hclose : frame.opcode = .close)
    (hbegun : begun (c.attend (.write writer result)).2 = []) :
    (l.after (.write writer result)).HasParted := by
  have hsettled := h.settled
  rw [hnow] at hsettled
  have hsound : c.Sound transport l.inFlight := hsettled
  have hledger := h.ordered.ledger c hnow hopen
  rw [Life.after_of_now hnow, Life.HasParted]
  rw [hbegun, List.append_nil, begun_append, hbegun, List.append_nil,
    hsound.framesOf_eraseP hadmits, hledger.closes_begun hhead hclose]
  exact Nat.one_pos

/-- An errand without input leaves a session as it was told by the octets, or it ends it. -/
theorem heeds_aside (h : Lived (.new id transport peer leftover limit) l) {octets : Bytes}
    {c : Connection} (hnow : l.now = some c) (hopen : c.closed = false)
    (hother : errand.isRead = false) (hadmits : l.Admits errand)
    (hheeds : l.Heeds limit transport octets errands) :
    (l.after errand).Heeds limit transport octets (errands ++ [errand]) ∨
      (l.after errand).Severed (errands ++ [errand]) := by
  have hlast : errand ∈ errands ++ [errand] := List.mem_append_right _ (List.mem_singleton_self _)
  have haside := Connection.aside_attend hopen hother
  have hkeeps (c' : Connection) (hafter : (c.attend errand).1 = some c') : c.Keeps c' :=
    Connection.keeps_attend hother hafter
  have hparted {writer : Transport} (hwrite : errand = .write writer (.ok ())) {frame : ServerFrame}
      (hhead : c.frames.head? = some frame) (hclose : frame.opcode = .close)
      (hbegun : begun (c.attend errand).2 = []) : (l.after errand).HasParted := by
    subst hwrite
    exact h.hasParted_after hnow hopen hadmits hhead hclose hbegun
  have hsettled := h.settled
  have hcloses := (h.ordered.ledger c hnow hopen).closes
  obtain ⟨htold, hown, hstands, -⟩ := hheeds
  rw [hnow] at hsettled hstands htold
  have hsound : c.Sound transport l.inFlight := hsettled
  rw [isOpen_some, hopen] at htold
  have hreads := Errand.reads_eraseP_of_not_read hother l.inFlight
  rw [Life.after_of_now hnow] at hparted ⊢
  generalize c.attend errand = outcome at haside hkeeps hparted
  cases haside with
  | stays hopen' htold' hown' hreads' =>
    refine .inl ⟨?_, ?_, ?_, fun hshut => ?_⟩
    · rw [delivered_append, htold, htold', List.append_nil, isOpen_some, hopen']
    · rw [joined_append, replies_append, hown, hown', List.append_nil]
    · rw [reads_append, hreads, hreads', List.append_nil]
      exact hstands.keeps (hkeeps _ rfl) (hopen'.trans hopen.symm)
    · rw [isOpen_some, hopen'] at hshut
      cases hshut
  | ends hshut htold' hown' hbegun hcause =>
    cases hqueued : c.closeQueued with
    | true =>
      have hnone := hsound.reads_eq_nil hopen hqueued
      refine .inl ⟨?_, ?_, ?_, fun _ => .inr ?_⟩
      · rw [delivered_append, htold, htold', hshut]
        simp
      · rw [joined_append, hown', List.append_nil, hown]
      · rw [hbegun, List.append_nil, hreads, hnone]
        rw [hnone] at hstands
        exact hstands.shuts (fun c' hafter => ⟨c, rfl, hkeeps c' hafter⟩) hshut
      · by_cases hspares : errand.Spares
        · obtain ⟨writer, frame, hwrite, hhead, hclose⟩ := hcause hspares
          exact .inl (hparted hwrite hhead hclose hbegun)
        · exact .inr ⟨errand, hlast, hspares⟩
    | false =>
      refine .inr ⟨hshut, ?_, errand, hlast, fun hspares => ?_⟩
      · rw [joined_append, hown', List.append_nil, hcloses, hqueued]
        rfl
      · obtain ⟨writer, frame, -, hhead, hclose⟩ := hcause hspares
        have hqueued' := hsound.closeQueued_of_head hopen hhead hclose
        exact absurd (hqueued'.symm.trans hqueued) (by decide)

/-- The end of a read adds to what the client has said, or it ends the session. -/
theorem heeds_read (h : Lived (.new id transport peer leftover limit) l) {octets : Bytes}
    {c : Connection} (hnow : l.now = some c) (hopen : c.closed = false)
    (hread : errand.isRead = true) (hadmits : l.Admits errand) (hconveys : l.Conveys errand)
    (hheeds : l.Heeds limit transport octets errands) :
    (l.after errand).Heeds limit transport (octets ++ errand.octets) (errands ++ [errand]) ∨
      (l.after errand).Severed (errands ++ [errand]) := by
  have hsettled := h.settled
  have hledger := (h.ordered.ledger c hnow hopen).closes
  obtain ⟨htold, hown, hstands, -⟩ := hheeds
  rw [hnow] at hsettled hstands htold
  have hsound : c.Sound transport l.inFlight := hsettled
  rw [isOpen_some, hopen] at htold
  generalize hspeech : speech limit octets = said at htold hown hstands
  generalize hreads : reads l.inFlight = operations at hstands
  cases hstands with
  | leaves => exact absurd (hread.symm.trans (hadmits.isRead_eq_false hreads)) (by decide)
  | broken => exact absurd (hread.symm.trans (hadmits.isRead_eq_false hreads)) (by decide)
  | @listens _ taken frames _ hfirst hdrain =>
    obtain ⟨input, result, rfl, hends, hleft⟩ := hadmits.of_reads hread hreads
    rw [hfirst] at hledger
    rw [Life.after_of_now hnow]
    by_cases hspares : (Errand.read transport input result).Spares
    · obtain ⟨hattend, n, rfl⟩ := Connection.attend_of_spared_read hopen hspares
      have hmem : .read c.id transport taken ∈ l.inFlight :=
        (List.mem_filter.mp (hreads ▸ List.mem_singleton_self _)).1
      have hinput := (hconveys _ hmem hends).input_eq
      have hfront : (c.finishRead transport input).WritesFront transport
          (writes (l.inFlight.eraseP (Errand.read transport input (.ok n)).ends)) :=
        hsound.front_finishRead hopen
      generalize (Errand.read transport input (.ok n)).octets = more at hinput ⊢
      obtain ⟨hadded, hhears⟩ := Connection.hears_more (c := c.finishRead transport input) hopen
        hfirst rfl hfront hdrain (by rw [hspeech]) hinput
      generalize Drained.speech _ = added at hadded hhears
      rw [hattend]
      refine .inl ⟨?_, ?_, ?_, fun hshut => .inl ?_⟩
      · rw [delivered_append, htold, hhears.told, hadded, Speech.messages_after, List.map_append]
        simp [Speech.messages]
      · rw [joined_append, replies_append, hown, hhears.own, replies_answers, hadded,
          Speech.answers_after]
        simp [Speech.answers]
      · rw [reads_append, hleft, List.nil_append, hadded]
        have hstands := hhears.stands
        rw [show (c.finishRead transport input).input.toList = _ from hinput] at hstands
        exact hstands.after hdrain
      · by_contra hgood
        have hopen' := hhears.lasts fun hbad => hgood (by rw [hadded]; exact hbad)
        exact absurd (hopen'.symm.trans hshut) (by decide)
    · obtain ⟨hshut, hjoined⟩ := Connection.attend_of_vain_read hopen hspares
      refine .inr ⟨hshut, ?_, _, List.mem_append_right _ (List.mem_singleton_self _), hspares⟩
      rw [joined_append, hjoined, List.append_nil]
      exact hledger

end Lived

theorem heeds_begin (id : ConnectionId) (transport : Transport) (peer : Option SocketAddress)
    (leftover : ReceiveBuffer) (limit : Nat) :
    (Life.begin (.new id transport peer leftover limit)).Heeds limit transport leftover.toList
      [] := by
  have hfront : (Connection.new id transport peer leftover limit).WritesFront transport
      (writes []) := .idle Fifo.toList_empty rfl rfl
  obtain ⟨htold, hown, hstands, hlasts⟩ := Connection.hears_processed
    (c := .new id transport peer leftover limit) rfl rfl rfl hfront (Decoder.drain_supported rfl)
  refine ⟨?_, ?_, hstands, fun hshut => .inl ?_⟩
  · show .newConnection :: delivered (Connection.new id transport peer leftover limit).processed.2 = _
    rw [htold]
    rfl
  · show replies (joined (Connection.new id transport peer leftover limit).processed.2) = _
    rw [hown, replies_answers]
    rfl
  · by_contra hgood
    exact absurd ((hlasts hgood).symm.trans hshut) (by decide)

/-- A session goes as the octets of the client say, or it is ended before it is clear how they
end. -/
theorem LivedBy.attends {id : ConnectionId} {transport : Transport} {peer : Option SocketAddress}
    {leftover : ReceiveBuffer} {limit : Nat} {errands : List Errand} {l : Life}
    (h : LivedBy (.new id transport peer leftover limit) errands l) :
    l.Heeds limit transport (heard leftover errands) errands ∨ l.Severed errands := by
  induction h with
  | begin =>
    rw [heard_nil]
    exact .inl (heeds_begin id transport peer leftover limit)
  | @errand errands l errand h hadmits hconveys ih =>
    rw [heard_append]
    rcases ih with hheeds | ⟨hshut, hcloses, cause, hmem, hcause⟩
    · cases hopen : isOpen l.now with
      | false => exact .inl (h.lived.heeds_shut hopen hadmits hheeds)
      | true =>
        obtain ⟨c, hnow, hclosed⟩ := exists_of_isOpen hopen
        cases hread : errand.isRead with
        | true => exact h.lived.heeds_read hnow hclosed hread hadmits hconveys hheeds
        | false =>
          rw [Errand.octets_of_not_read hread, List.append_nil]
          exact h.lived.heeds_aside hnow hclosed hread hadmits hheeds
    · obtain ⟨hshut', -, hown, -, -⟩ := h.lived.after_shut hshut errand
      refine .inr ⟨hshut', ?_, cause, List.mem_append_left _ hmem, hcause⟩
      rw [hown]
      exact hcloses

end WebSocket
