import WebSocket.Proofs.Session.Growth

/-!
# Outcomes of errands

An errand brings back the half of an operation that has ended, if it is the end of one.  After that
there are six ways.  The connection is dropped, or breaks off in the middle of its input, or reads
on, or writes the next frame; a message joins the queue, or is lost because the connection has
closed (`Connection.Outcome`).  What errands do to a connection is proved by these six cases.
-/

namespace WebSocket

def isOpen (now : Option Connection) : Bool := now.any fun c => !c.closed

theorem isOpen_some (c : Connection) : isOpen (some c) = !c.closed := rfl

theorem exists_of_isOpen {now : Option Connection} (h : isOpen now = true) :
    ∃ c, now = some c ∧ c.closed = false := by
  obtain ⟨c, hnow, hopen⟩ := (Option.any_eq_true ..).mp h
  exact ⟨c, hnow, Bool.not_eq_true' _ ▸ hopen⟩

namespace Connection

/-- The connection with the half that an errand brings back. -/
def returned (c : Connection) : Errand → Connection
  | .read reader input _ => c.finishRead reader input
  | .write writer _ => (c.finishWrite writer).1
  | .send .. | .drop => c

/-- What an errand may come to. -/
inductive Outcome (c : Connection) : Errand → Option Connection × List Effect → Prop
  /-- The connection closes, or has closed before. -/
  | drops {errand : Errand} {notes : List Effect} : Notes notes →
      Outcome c errand ((c.returned errand).dropped.1, notes ++ (c.returned errand).dropped.2)
  /-- A frame of the input breaks a rule. -/
  | breaks {reader : Transport} {input : ReceiveBuffer} {result : Except Fault Nat}
      {c' : Connection} {effects : List Effect} :
      c.closed = false → (c.finishRead reader input).Grows c' effects →
      carriers (joined effects) = [] →
      Outcome c (.read reader input result) (c'.dropped.1, effects ++ c'.dropped.2)
  /-- The input is used up. -/
  | reads {reader : Transport} {input : ReceiveBuffer} {result : Except Fault Nat}
      {c' : Connection} {effects : List Effect} :
      c.closed = false → (c.finishRead reader input).Grows c' effects →
      carriers (joined effects) = [] →
      Outcome c (.read reader input result)
        (some c'.beginRead.1, effects ++ startEffect c'.beginRead.2)
  /-- A frame is written, and it was not the answer to a Close frame. -/
  | writes {writer : Transport} :
      c.closed = false → (∀ frame ∈ (c.finishWrite writer).2, frame.opcode ≠ .close) →
      Outcome c (.write writer (.ok ()))
        (some (c.finishWrite writer).1.beginWrite.1,
          .count (.frame .outbound) :: startEffect (c.finishWrite writer).1.beginWrite.2)
  /-- A message joins the queue. -/
  | takes {message : Message} {loan : Option Loan} {c' : Connection} {effects : List Effect} :
      c.closed = false → c.Grows c' effects → c'.closeQueued = c.closeQueued →
      joined effects = [message.frame] → Outcome c (.send message loan) (some c', effects)
  /-- A message is lost. -/
  | ignores {message : Message} {loan : Option Loan} :
      c.closed = true → Outcome c (.send message loan) (some c, [])

/-! ## The end of a write -/

theorem continues_finishWrite (c : Connection) (writer : Transport) :
    c.Continues (c.finishWrite writer).1 := by
  simp only [finishWrite]
  split
  · exact ⟨rfl, rfl, rfl, rfl, rfl⟩
  · split <;> exact ⟨rfl, rfl, rfl, rfl, rfl⟩

theorem sending_finishWrite (c : Connection) (writer : Transport) :
    (c.finishWrite writer).1.sending = false := by
  simp only [finishWrite]
  split
  · rfl
  · split <;> rfl

theorem writer_finishWrite (c : Connection) (writer : Transport) :
    (c.finishWrite writer).1.writer = some writer := by
  simp only [finishWrite]
  split
  · rfl
  · split <;> rfl

theorem closeQueued_finishWrite (c : Connection) (writer : Transport) :
    (c.finishWrite writer).1.closeQueued = c.closeQueued := by
  simp only [finishWrite]
  split
  · rfl
  · split <;> rfl

/-- The frame that was written leaves the queue. -/
theorem frames_finishWrite {c : Connection} (hopen : c.closed = false) (writer : Transport) :
    (c.finishWrite writer).2 = c.frames.head? ∧
      (c.finishWrite writer).1.frames = c.frames.tail := by
  simp only [finishWrite, hopen, Bool.false_eq_true, if_false]
  cases hpop : c.queue.pop? with
  | none =>
    have hqueue := Fifo.pop?_eq_none_iff.mp hpop
    simp [frames, hqueue]
  | some popped =>
    have hqueue := Fifo.toList_of_pop? hpop
    simp [frames, hqueue]

theorem closes_finishWrite {c : Connection} (hopen : c.closed = false) {writer : Transport}
    (h : ∀ frame ∈ (c.finishWrite writer).2, frame.opcode ≠ .close) :
    closes (c.finishWrite writer).1.frames = closes c.frames := by
  obtain ⟨hwritten, hlater⟩ := frames_finishWrite hopen writer
  rw [hlater]
  cases hframes : c.frames with
  | nil => rfl
  | cons frame later =>
    have hother := h frame (by rw [hwritten, hframes]; rfl)
    simp [closes, hother]

/-! ## Beginnings and ends -/

/-- What the beginning of a connection is told with. -/
def greeting (c : Connection) : List Effect :=
  [.count .opened, .report (.opened c.id c.peer), .deliver c.id .newConnection]

/-- What the end of a connection is told with. -/
def farewell (c : Connection) : List Effect :=
  [.cancel c.id, .report (.closed c.id), .deliver c.id .disconnect]

/-- A drop tells of the end the first time; beyond that it lets the half to read from go at most. -/
theorem dropped_effects (c : Connection) :
    ∃ rest, c.dropped.2 = (if c.closed then [] else c.farewell) ++ rest ∧
      begun rest = [] ∧ joined rest = [] ∧ delivered rest = [] := by
  have htold : (if c.close.2 then
      [.cancel c.close.1.id, .report (.closed c.close.1.id), .deliver c.close.1.id .disconnect]
      else []) = if c.closed then [] else c.farewell := by
    unfold close
    cases c.closed <;> rfl
  simp only [dropped, htold]
  split
  · refine ⟨_, rfl, ?_⟩
    cases c.close.1.reader <;> exact ⟨rfl, rfl, rfl⟩
  · exact ⟨[], (List.append_nil _).symm, rfl, rfl, rfl⟩

theorem begun_dropped (c : Connection) : begun c.dropped.2 = [] := by
  obtain ⟨rest, heffects, hbegun, -, -⟩ := c.dropped_effects
  rw [heffects, begun_append, hbegun]
  split <;> rfl

theorem joined_dropped (c : Connection) : joined c.dropped.2 = [] := by
  obtain ⟨rest, heffects, -, hjoined, -⟩ := c.dropped_effects
  rw [heffects, joined_append, hjoined]
  split <;> rfl

/-- The application is told of the end when an open connection is dropped. -/
theorem delivered_dropped (c : Connection) :
    delivered c.dropped.2 = if c.closed then [] else [.disconnect] := by
  obtain ⟨rest, heffects, -, -, hdelivered⟩ := c.dropped_effects
  rw [heffects, delivered_append, hdelivered]
  split <;> rfl

theorem closed_close (c : Connection) : c.close.1.closed = true := by
  unfold close
  split
  · assumption
  · rfl

/-- No connection is open after a drop. -/
theorem isOpen_dropped (c : Connection) : isOpen c.dropped.1 = false := by
  simp only [dropped]
  split
  · rfl
  · rw [isOpen_some, c.closed_close]
    rfl

/-! ## The six outcomes -/

/-- Handling the input ends in a drop or goes on with a read. -/
theorem processed_cases (c : Connection) :
    ∃ c' effects, c.Grows c' effects ∧ carriers (joined effects) = [] ∧
      (c.processed = (c'.dropped.1, effects ++ c'.dropped.2) ∨
        c.processed = (some c'.beginRead.1, effects ++ startEffect c'.beginRead.2)) := by
  have hconsume := c.grows_consume
  simp only [processed, violated]
  split
  · rename_i error _
    have hnotes : c.consume.connection.Grows c.consume.connection
        [.report (.violation c.consume.connection.id error), .count (.error .protocol)] :=
      .notes (.cons rfl (.cons rfl .nil))
    refine ⟨_, _, hconsume.trans hnotes, ?_, .inl ?_⟩
    · rw [joined_append, carriers_append, c.carriers_consume]
      rfl
    · simp only [List.append_assoc, List.cons_append, List.nil_append]
  · exact ⟨_, _, hconsume, c.carriers_consume, .inr rfl⟩

theorem outcome_dropped (c : Connection) (errand : Errand) :
    c.Outcome errand (c.returned errand).dropped :=
  .drops .nil

theorem outcome_failed (c : Connection) (errand : Errand) {notice : Notice}
    (h : (Effect.report notice).isNote = true) :
    c.Outcome errand ((c.returned errand).failed notice) :=
  have hnotes : Notes [.report notice, .count (.error .io)] := .cons h (.cons rfl .nil)
  .drops hnotes

theorem outcome_read (c : Connection) (reader : Transport) (input : ReceiveBuffer)
    (result : Except Fault Nat) :
    c.Outcome (.read reader input result) (c.attend (.read reader input result)) := by
  simp only [attend]
  split
  · exact c.outcome_dropped (.read reader input result)
  · rename_i hopen
    have hopen : c.closed = false := by simpa [finishRead] using hopen
    split
    · exact c.outcome_dropped (.read reader input (.ok 0))
    · obtain ⟨c', effects, hgrows, hown, hends | hreads⟩ := (c.finishRead reader input).processed_cases
      · rw [hends]
        exact .breaks hopen hgrows hown
      · rw [hreads]
        exact .reads hopen hgrows hown
    · exact c.outcome_failed (.read reader input _) rfl

theorem outcome_write (c : Connection) (writer : Transport) (result : Except Fault Unit) :
    c.Outcome (.write writer result) (c.attend (.write writer result)) := by
  simp only [attend]
  split
  · exact c.outcome_dropped (.write writer result)
  · rename_i hopen
    have hopen : c.closed = false := by
      rw [← (c.continues_finishWrite writer).closed]
      simpa using hopen
    split
    · exact c.outcome_failed (.write writer _) rfl
    · simp only [wrote]
      split
      · have hnotes : Notes [.count (.frame .outbound)] := .cons rfl .nil
        exact .drops hnotes
      · rename_i hother
        refine .writes hopen fun frame hframe hclose => hother ?_
        rw [Option.mem_def.mp hframe]
        simp [hclose]

/-- Every errand has one of the six outcomes. -/
theorem outcome_attend (c : Connection) (errand : Errand) :
    c.Outcome errand (c.attend errand) := by
  cases errand with
  | read reader input result => exact c.outcome_read reader input result
  | write writer result => exact c.outcome_write writer result
  | send message loan =>
    cases hclosed : c.closed with
    | true =>
      simp only [attend, answer_of_closed hclosed]
      exact .ignores hclosed
    | false =>
      refine .takes hclosed (c.grows_answer ?_) (c.closeQueued_answer _) (joined_answer hclosed _)
      cases message <;> simp [Message.frame, ServerFrame.text, ServerFrame.binary]
  | drop => exact c.outcome_dropped .drop

/-! ## Numbers -/

theorem close_id (c : Connection) : c.close.1.id = c.id := by
  unfold close
  split <;> rfl

theorem beginRead_id (c : Connection) : c.beginRead.1.id = c.id := by
  unfold beginRead
  split
  · rfl
  · split <;> rfl

theorem dropped_id {c now : Connection} (h : c.dropped.1 = some now) : now.id = c.id := by
  simp only [dropped] at h
  split at h
  · cases h
  · cases h
    exact close_id c

theorem closed_beginRead (c : Connection) : c.beginRead.1.closed = c.closed := by
  unfold beginRead
  split
  · rfl
  · split <;> rfl

theorem closed_returned (c : Connection) (errand : Errand) :
    (c.returned errand).closed = c.closed := by
  cases errand with
  | write writer result => exact (c.continues_finishWrite writer).closed
  | _ => rfl

theorem returned_id (c : Connection) (errand : Errand) : (c.returned errand).id = c.id := by
  cases errand with
  | write writer result => exact (c.continues_finishWrite writer).id
  | _ => rfl

theorem processed_id {c now : Connection} (h : c.processed.1 = some now) : now.id = c.id := by
  obtain ⟨c', effects, hgrows, -, hends | hreads⟩ := c.processed_cases
  · rw [hends] at h
    exact (dropped_id h).trans hgrows.id
  · rw [hreads] at h
    cases h
    exact (beginRead_id c').trans hgrows.id

/-- A connection that has run an errand and is still there has the number that it had. -/
theorem attend_id {c now : Connection} {errand : Errand} (h : (c.attend errand).1 = some now) :
    now.id = c.id := by
  have houtcome := c.outcome_attend errand
  generalize c.attend errand = outcome at houtcome h
  cases houtcome with
  | drops hnotes => exact (dropped_id h).trans (c.returned_id errand)
  | breaks hopen hgrows hown => exact (dropped_id h).trans hgrows.id
  | @reads reader input result c' effects hopen hgrows hown =>
    cases h
    exact (beginRead_id c').trans hgrows.id
  | @writes writer hopen hother =>
    cases h
    exact (continues_beginWrite _).id.trans (c.continues_finishWrite writer).id
  | takes hopen hgrows hsame hjoined =>
    cases h
    exact hgrows.id
  | ignores hclosed =>
    cases h
    rfl

/-! ## Effects -/

theorem confined_beginRead (c : Connection) : Confined c.id (startEffect c.beginRead.2) := by
  apply confined_startEffect
  intro o ho
  unfold beginRead at ho
  split at ho
  · cases ho
  · split at ho
    · cases ho
    · cases ho
      rfl

theorem confined_dropped (c : Connection) : Confined c.id c.dropped.2 := by
  have htold : Confined c.id (if c.close.2 then
      [.cancel c.close.1.id, .report (.closed c.close.1.id), .deliver c.close.1.id .disconnect]
      else []) := by
    rw [close_id]
    split
    · exact .cons rfl (.cons trivial (.cons rfl .nil))
    · exact .nil
  simp only [dropped]
  split
  · refine htold.append (.cons trivial ?_)
    cases c.close.1.reader with
    | none => exact .nil
    | some transport => exact .cons trivial .nil
  · exact htold

theorem confined_processed (c : Connection) : Confined c.id c.processed.2 := by
  obtain ⟨c', effects, hgrows, -, hends | hreads⟩ := c.processed_cases
  · rw [hends]
    exact hgrows.confined.append (hgrows.id ▸ confined_dropped c')
  · rw [hreads]
    exact hgrows.confined.append (hgrows.id ▸ confined_beginRead c')

theorem confined_opened (c : Connection) : Confined c.id c.opened.2 :=
  .cons trivial (.cons trivial (.cons rfl (confined_processed c)))

/-- An errand has effects on its own connection only. -/
theorem confined_attend (c : Connection) (errand : Errand) :
    Confined c.id (c.attend errand).2 := by
  have houtcome := c.outcome_attend errand
  generalize c.attend errand = outcome at houtcome
  cases houtcome with
  | drops hnotes =>
    have hid := c.returned_id errand
    exact (hnotes.confined _).append (hid ▸ confined_dropped (c.returned errand))
  | @breaks reader input result c' effects hopen hgrows hown =>
    exact hgrows.confined.append (hgrows.id ▸ confined_dropped c')
  | @reads reader input result c' effects hopen hgrows hown =>
    exact hgrows.confined.append (hgrows.id ▸ confined_beginRead c')
  | @writes writer hopen hother =>
    have hid := (c.continues_finishWrite writer).id
    exact .cons trivial (hid ▸ confined_beginWrite (c.finishWrite writer).1)
  | takes hopen hgrows hsame hjoined => exact hgrows.confined
  | ignores hclosed => exact .nil

end Connection

end WebSocket
