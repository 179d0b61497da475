import WebSocket.Proofs.Session.Lives

/-!
# Halves and operations

A connection owns the two halves of its stream, and each half is with the connection or with an
operation in flight.  `Connection.Sound` says so, and what keeps an open connection going: the first
frame of its queue is on its way, and it reads until it has the answer to a Close frame in its
queue.  Every errand keeps this (`Connection.Sound.attend`), so it is true of every life as long as
the connection is in the table (`Lived.settled`).
-/

namespace WebSocket

def reads (operations : List Operation) : List Operation := operations.filter (·.isRead)

def writes (operations : List Operation) : List Operation := operations.filter fun o => !o.isRead

section

variable (operations more : List Operation)

@[simp] theorem reads_append : reads (operations ++ more) = reads operations ++ reads more :=
  List.filter_append ..

@[simp] theorem writes_append : writes (operations ++ more) = writes operations ++ writes more :=
  List.filter_append ..

end

theorem eq_nil_of_halves {operations : List Operation} (hr : reads operations = [])
    (hw : writes operations = []) : operations = [] := by
  cases operations with
  | nil => rfl
  | cons o later => cases o <;> simp [reads, writes, Operation.isRead] at hr hw

theorem reads_of_writes {operations : List Operation} (h : writes operations = operations) :
    reads operations = [] := by
  rw [reads, List.filter_eq_nil_iff]
  intro o hmem
  rw [← h] at hmem
  simpa [writes] using (List.mem_filter.mp hmem).2

namespace Errand

variable {errand : Errand} {operations : List Operation}

theorem ends_send (message : Message) (loan : Option Loan) (o : Operation) :
    (Errand.send message loan).ends o = false := by
  cases o <;> rfl

theorem ends_drop (o : Operation) : Errand.drop.ends o = false := by
  cases o <;> rfl

theorem eraseP_of_not_end (h : errand.isEnd = false) : operations.eraseP errand.ends = operations := by
  apply List.eraseP_of_forall_not
  intro o _
  cases errand with
  | read => cases h
  | write => cases h
  | send message loan => rw [ends_send]; decide
  | drop => rw [ends_drop]; decide

/-- The end of a read leaves the writes. -/
theorem writes_eraseP_read (reader : Transport) (input : ReceiveBuffer)
    (result : Except Fault Nat) :
    writes (operations.eraseP (Errand.read reader input result).ends) = writes operations := by
  apply filter_eraseP_of_not
  intro o hends
  cases o with
  | read => rfl
  | write => cases hends

/-- The end of a write leaves the reads. -/
theorem reads_eraseP_write (writer : Transport) (result : Except Fault Unit) :
    reads (operations.eraseP (Errand.write writer result).ends) = reads operations := by
  apply filter_eraseP_of_not
  intro o hends
  cases o with
  | read => cases hends
  | write => rfl

theorem reads_eraseP_read (reader : Transport) (input : ReceiveBuffer)
    (result : Except Fault Nat) :
    reads (operations.eraseP (Errand.read reader input result).ends) =
      (reads operations).eraseP (Errand.read reader input result).ends := by
  rw [reads, reads, List.eraseP_filter]
  congr 2
  funext o
  cases o <;> simp [ends, Operation.isRead]

theorem writes_eraseP_write (writer : Transport) (result : Except Fault Unit) :
    writes (operations.eraseP (Errand.write writer result).ends) =
      (writes operations).eraseP (Errand.write writer result).ends := by
  rw [writes, writes, List.eraseP_filter]
  congr 2
  funext o
  cases o <;> simp [ends, Operation.isRead]

end Errand

namespace Connection

/-! ## Where the halves are -/

/-- Whether the half to read from is with the connection, or with the one read in flight. -/
inductive HoldsReader (c : Connection) (transport : Transport) : List Operation → Prop
  | held : c.reading = false → c.reader = some transport → HoldsReader c transport []
  | lent {input : ReceiveBuffer} : c.reading = true → c.reader = none →
      HoldsReader c transport [.read c.id transport input]

/-- Whether the half to write to is with the connection, or with the one write in flight. -/
inductive HoldsWriter (c : Connection) (transport : Transport) : List Operation → Prop
  | held : c.sending = false → c.writer = some transport → HoldsWriter c transport []
  | lent {outgoing : Outgoing} : c.sending = true → c.writer = none →
      HoldsWriter c transport [.write c.id transport outgoing]

/-- What is true of a connection between two errands. -/
structure Sound (c : Connection) (transport : Transport) (inFlight : List Operation) : Prop where
  reader : c.HoldsReader transport (reads inFlight)
  writer : c.HoldsWriter transport (writes inFlight)
  busy : c.closed = true → c.reading = true ∨ c.sending = true
  front : c.closed = false → c.WritesFront transport (writes inFlight)
  reading : c.closed = false → c.reading = !c.closeQueued
  closes : c.closed = false → closes c.frames = c.closeQueued.toNat

variable {c c' : Connection} {transport : Transport} {operations more : List Operation}
  {effects : List Effect}

theorem WritesFront.holds (h : c.WritesFront transport operations) :
    c.HoldsWriter transport operations := by
  cases h with
  | idle hqueue hsending hwriter => exact .held hsending hwriter
  | busy hqueue hsending hwriter => exact .lent hsending hwriter

theorem WritesFront.writes_eq (h : c.WritesFront transport operations) :
    writes operations = operations := by
  cases h <;> rfl

/-- A growth begins writes only. -/
theorem Grows.writes_begun (h : c.Grows c' effects)
    (hfront : c.WritesFront transport (writes operations)) :
    writes (begun effects) = begun effects := by
  have hall := (h.front hfront).writes_eq
  rw [writes_append] at hall
  rw [show writes (writes operations) = writes operations by simp [writes]] at hall
  exact List.append_cancel_left hall

theorem HoldsReader.of_same (h : c.HoldsReader transport operations) (hid : c'.id = c.id)
    (hreading : c'.reading = c.reading) (hreader : c'.reader = c.reader) :
    c'.HoldsReader transport operations := by
  cases h with
  | held h₁ h₂ => exact .held (hreading.trans h₁) (hreader.trans h₂)
  | lent h₁ h₂ => exact hid ▸ .lent (hreading.trans h₁) (hreader.trans h₂)

theorem HoldsWriter.of_same (h : c.HoldsWriter transport operations) (hid : c'.id = c.id)
    (hsending : c'.sending = c.sending) (hwriter : c'.writer = c.writer) :
    c'.HoldsWriter transport operations := by
  cases h with
  | held h₁ h₂ => exact .held (hsending.trans h₁) (hwriter.trans h₂)
  | lent h₁ h₂ => exact hid ▸ .lent (hsending.trans h₁) (hwriter.trans h₂)

theorem WritesFront.of_same (h : c.WritesFront transport operations) (hid : c'.id = c.id)
    (hqueue : c'.queue = c.queue) (hsending : c'.sending = c.sending)
    (hwriter : c'.writer = c.writer) : c'.WritesFront transport operations := by
  cases h with
  | idle h₁ h₂ h₃ => exact .idle (hqueue ▸ h₁) (hsending.trans h₂) (hwriter.trans h₃)
  | busy h₁ h₂ h₃ => exact hid ▸ .busy (hqueue ▸ h₁) (hsending.trans h₂) (hwriter.trans h₃)

theorem HoldsReader.of_not_reading (h : c.HoldsReader transport operations)
    (hreading : c.reading = false) : operations = [] ∧ c.reader = some transport := by
  cases h with
  | held _ hreader => exact ⟨rfl, hreader⟩
  | lent hlent => exact absurd (hlent.symm.trans hreading) (by decide)

theorem HoldsWriter.of_not_sending (h : c.HoldsWriter transport operations)
    (hsending : c.sending = false) : operations = [] ∧ c.writer = some transport := by
  cases h with
  | held _ hwriter => exact ⟨rfl, hwriter⟩
  | lent hlent => exact absurd (hlent.symm.trans hsending) (by decide)

theorem HoldsReader.of_mem (h : c.HoldsReader transport operations) {o : Operation}
    (hmem : o ∈ operations) :
    c.reading = true ∧ c.reader = none ∧ ∃ input, operations = [.read c.id transport input] := by
  cases h with
  | held => cases hmem
  | lent hreading hreader => exact ⟨hreading, hreader, _, rfl⟩

theorem HoldsWriter.of_mem (h : c.HoldsWriter transport operations) {o : Operation}
    (hmem : o ∈ operations) :
    c.sending = true ∧ c.writer = none ∧
      ∃ outgoing, operations = [.write c.id transport outgoing] := by
  cases h with
  | held => cases hmem
  | lent hsending hwriter => exact ⟨hsending, hwriter, _, rfl⟩

theorem HoldsReader.iff (h : c.HoldsReader transport operations) :
    (c.reading = true ↔ c.reader = none) ∧ (c.reader = none ↔ operations.length = 1) := by
  cases h with
  | held hreading hreader => simp [hreading, hreader]
  | lent hreading hreader => simp [hreading, hreader]

theorem HoldsWriter.iff (h : c.HoldsWriter transport operations) :
    (c.sending = true ↔ c.writer = none) ∧ (c.writer = none ↔ operations.length = 1) := by
  cases h with
  | held hsending hwriter => simp [hsending, hwriter]
  | lent hsending hwriter => simp [hsending, hwriter]

theorem HoldsReader.ne_nil_iff (h : c.HoldsReader transport operations) :
    operations ≠ [] ↔ c.reading = true := by
  cases h with
  | held hreading => simp [hreading]
  | lent hreading => simp [hreading]

theorem WritesFront.ne_nil_iff (h : c.WritesFront transport operations) :
    operations ≠ [] ↔ c.queue.toList ≠ [] := by
  cases h with
  | idle hqueue => simp [hqueue]
  | busy hqueue => simp [hqueue]

theorem WritesFront.head?_of_mem (h : c.WritesFront transport operations) {id : ConnectionId}
    {writer : Transport} {outgoing : Outgoing} (hmem : .write id writer outgoing ∈ operations) :
    c.queue.head? = some outgoing := by
  rw [Fifo.head?_eq]
  cases h with
  | idle => cases hmem
  | busy hqueue =>
    rw [List.mem_singleton] at hmem
    cases hmem
    rw [hqueue]
    rfl

theorem HoldsReader.length_le (h : c.HoldsReader transport operations) : operations.length ≤ 1 := by
  cases h <;> simp

theorem HoldsWriter.length_le (h : c.HoldsWriter transport operations) : operations.length ≤ 1 := by
  cases h <;> simp

theorem Grows.closes_frames (h : c.Grows c' effects)
    (hcloses : WebSocket.closes c.frames = c.closeQueued.toNat) :
    WebSocket.closes c'.frames = c'.closeQueued.toNat := by
  rw [h.frames, h.closes, ← hcloses, closes_append]

/-- The halves stay where they are while the queue grows, apart from a write that begins. -/
theorem Grows.halves (h : c.Grows c' effects) (hreader : c.HoldsReader transport (reads operations))
    (hfront : c.WritesFront transport (writes operations)) :
    c'.HoldsReader transport (reads (operations ++ begun effects)) ∧
      c'.WritesFront transport (writes (operations ++ begun effects)) := by
  have hwrites := h.writes_begun hfront
  rw [reads_append, reads_of_writes hwrites, List.append_nil, writes_append, hwrites]
  exact ⟨hreader.of_same h.id h.reading h.reader, h.front hfront⟩

/-- While a half is away, the operation that took it is in flight. -/
theorem Sound.exists_mem (h : c.Sound transport operations)
    (hbusy : c.reading = true ∨ c.sending = true) : ∃ o, o ∈ operations := by
  rcases hbusy with hreading | hsending
  · have hone := h.reader.iff.2.mp (h.reader.iff.1.mp hreading)
    obtain ⟨o, ho⟩ := List.exists_mem_of_length_pos (by omega : 0 < (reads operations).length)
    exact ⟨o, (List.mem_filter.mp ho).1⟩
  · have hone := h.writer.iff.2.mp (h.writer.iff.1.mp hsending)
    obtain ⟨o, ho⟩ := List.exists_mem_of_length_pos (by omega : 0 < (writes operations).length)
    exact ⟨o, (List.mem_filter.mp ho).1⟩

theorem Sound.not_removable (h : c.Sound transport operations) : c.isRemovable = false := by
  unfold isRemovable lifecycle
  cases hclosed : c.closed with
  | true =>
    have hbusy : (c.reading || c.sending) = true := by simpa using h.busy hclosed
    rw [if_pos rfl, if_pos hbusy]
    rfl
  | false => rfl

/-! ## Ends -/

/-- The connection is sound, if it is still there, and nothing is in flight if it is gone. -/
def Settled (transport : Transport) (inFlight : List Operation) : Option Connection → Prop
  | none => inFlight = []
  | some c => c.Sound transport inFlight

/-- A connection that closes stays until its halves are back. -/
theorem settled_dropped (hreader : c.HoldsReader transport (reads operations))
    (hwriter : c.HoldsWriter transport (writes operations)) :
    Settled transport operations c.dropped.1 := by
  have hsame : c.close.1.id = c.id ∧ c.close.1.reading = c.reading ∧
      c.close.1.reader = c.reader ∧ c.close.1.sending = c.sending ∧
      c.close.1.writer = c.writer ∧ c.close.1.closed = true := by
    unfold close
    split
    · rename_i hclosed
      exact ⟨rfl, rfl, rfl, rfl, rfl, hclosed⟩
    · exact ⟨rfl, rfl, rfl, rfl, rfl, rfl⟩
  obtain ⟨hid, hreading, hr, hsending, hw, hclosed⟩ := hsame
  have hremovable : c.close.1.isRemovable = !(c.reading || c.sending) := by
    simp only [isRemovable, lifecycle, hclosed, hreading, hsending, if_true]
    cases c.reading <;> cases c.sending <;> rfl
  simp only [dropped, hremovable]
  have hsound (hbusy : c.reading = true ∨ c.sending = true) :
      c.close.1.Sound transport operations := {
    reader := hreader.of_same hid hreading hr
    writer := hwriter.of_same hid hsending hw
    busy := by
      intro _
      rwa [hreading, hsending]
    front := by
      intro hopen
      exact absurd (hclosed.symm.trans hopen) (by decide)
    reading := by
      intro hopen
      exact absurd (hclosed.symm.trans hopen) (by decide)
    closes := by
      intro hopen
      exact absurd (hclosed.symm.trans hopen) (by decide) }
  cases hreading' : c.reading with
  | true => exact hsound (.inl hreading')
  | false =>
    cases hsending' : c.sending with
    | true => exact hsound (.inr hsending')
    | false =>
      have hnone := (hreader.of_not_reading hreading').1
      exact eq_nil_of_halves hnone (hwriter.of_not_sending hsending').1

/-! ## Beginnings -/

/-- The connection with its half to read from and its input taken away. -/
def lentReader (c : Connection) : Connection :=
  { c with reader := none, reading := true, input := c.input.away }

theorem beginRead_of_open (hopen : c.closed = false) (hreader : c.reader = some transport) :
    c.beginRead = if c.closeQueued then (c, none)
      else (c.lentReader, some (.read c.id transport c.input)) := by
  unfold beginRead
  rw [hopen, hreader, Bool.false_or]
  split
  · rfl
  · simp only [lentReader, hopen]

/-- An open connection whose half is back begins to read, unless the answer to a Close frame is in
its queue. -/
theorem sound_beginRead (hopen : c.closed = false)
    (hreader : c.HoldsReader transport (reads operations)) (hreading : c.reading = false)
    (hfront : c.WritesFront transport (writes operations))
    (hcloses : WebSocket.closes c.frames = c.closeQueued.toNat) :
    c.beginRead.1.Sound transport (operations ++ c.beginRead.2.toList) := by
  obtain ⟨hnone, hheld⟩ := hreader.of_not_reading hreading
  rw [beginRead_of_open hopen hheld]
  cases hclose : c.closeQueued with
  | true =>
    rw [if_pos rfl, Option.toList_none, List.append_nil]
    exact {
      reader := hreader
      writer := hfront.holds
      busy := by
        intro hclosed
        exact absurd (hclosed.symm.trans hopen) (by decide)
      front := fun _ => hfront
      reading := by
        intro _
        rw [hreading, hclose]
        rfl
      closes := fun _ => hcloses }
  | false =>
    rw [if_neg (by decide), Option.toList_some]
    have hread : reads (operations ++ [.read c.id transport c.input]) =
        [.read c.id transport c.input] := by
      rw [reads_append, hnone]
      rfl
    have hwrite : writes (operations ++ [.read c.id transport c.input]) = writes operations := by
      rw [writes_append]
      exact List.append_nil _
    have hfront' : c.lentReader.WritesFront transport (writes operations) :=
      hfront.of_same rfl rfl rfl rfl
    exact {
      reader := by
        rw [hread]
        exact .lent (c := c.lentReader) rfl rfl
      writer := by
        rw [hwrite]
        exact hfront'.holds
      busy := fun _ => .inl rfl
      front := by
        intro _
        rw [hwrite]
        exact hfront'
      reading := fun _ => (congrArg (!·) hclose).symm
      closes := fun _ => hcloses }

/-- The end of an operation in flight brings its half back. -/
theorem Sound.returned (h : c.Sound transport operations) {errand : Errand}
    (hend : errand.isEnd → ∃ o ∈ operations, errand.ends o) :
    (c.returned errand).HoldsReader transport (reads (operations.eraseP errand.ends)) ∧
      (c.returned errand).HoldsWriter transport (writes (operations.eraseP errand.ends)) := by
  cases errand with
  | read reader input result =>
    obtain ⟨o, hmem, hends⟩ := hend rfl
    rw [Errand.reads_eraseP_read, Errand.writes_eraseP_read]
    have hread : o ∈ reads operations := by
      refine List.mem_filter.mpr ⟨hmem, ?_⟩
      cases o with
      | read => rfl
      | write => cases hends
    -- There is no other read, so it is the one that took the half away.
    obtain ⟨-, -, taken, hreads⟩ := h.reader.of_mem hread
    rw [hreads, List.mem_singleton] at hread
    subst hread
    have hreader : reader = transport := by simpa [Errand.ends] using hends
    subst hreader
    rw [hreads, List.eraseP_cons_of_pos hends]
    exact ⟨.held rfl rfl, h.writer.of_same rfl rfl rfl⟩
  | write writer result =>
    obtain ⟨o, hmem, hends⟩ := hend rfl
    rw [Errand.reads_eraseP_write, Errand.writes_eraseP_write]
    have hwrite : o ∈ writes operations := by
      refine List.mem_filter.mpr ⟨hmem, ?_⟩
      cases o with
      | read => cases hends
      | write => rfl
    obtain ⟨-, -, outgoing, hwrites⟩ := h.writer.of_mem hwrite
    rw [hwrites, List.mem_singleton] at hwrite
    subst hwrite
    have hwriter : writer = transport := by simpa [Errand.ends] using hends
    subst hwriter
    have hcontinues := c.continues_finishWrite writer
    rw [hwrites, List.eraseP_cons_of_pos hends]
    exact ⟨h.reader.of_same hcontinues.id hcontinues.reading hcontinues.reader,
      .held (c.sending_finishWrite writer) (c.writer_finishWrite writer)⟩
  | send message loan =>
    rw [Errand.eraseP_of_not_end rfl]
    exact ⟨h.reader, h.writer⟩
  | drop =>
    rw [Errand.eraseP_of_not_end rfl]
    exact ⟨h.reader, h.writer⟩

/-! ## Errands -/

/-- The connection drops or reads on after its queue has grown. -/
theorem Grows.settled (h : c.Grows c' effects) (hopen : c.closed = false)
    (hreading : c.reading = false) (hreader : c.HoldsReader transport (reads operations))
    (hfront : c.WritesFront transport (writes operations))
    (hcloses : WebSocket.closes c.frames = c.closeQueued.toNat) :
    Settled transport (operations ++ begun (effects ++ c'.dropped.2)) c'.dropped.1 ∧
      c'.beginRead.1.Sound transport
        (operations ++ begun (effects ++ startEffect c'.beginRead.2)) := by
  obtain ⟨hreader', hfront'⟩ := h.halves hreader hfront
  constructor
  · rw [begun_append, begun_dropped, List.append_nil]
    exact settled_dropped hreader' hfront'.holds
  · rw [begun_append, begun_startEffect, ← List.append_assoc]
    exact sound_beginRead (h.closed.trans hopen) hreader' (h.reading.trans hreading) hfront'
      (h.closes_frames hcloses)

theorem Sound.front_finishRead (h : c.Sound transport operations) (hopen : c.closed = false)
    {reader : Transport} {input : ReceiveBuffer} {result : Except Fault Nat} :
    (c.finishRead reader input).WritesFront transport
      (writes (operations.eraseP (Errand.read reader input result).ends)) := by
  rw [Errand.writes_eraseP_read]
  exact (h.front hopen).of_same rfl rfl rfl rfl

/-- An open connection goes on with the next frame. -/
theorem Sound.next (h : c.Sound transport operations) (hopen : c.closed = false)
    {writer : Transport} (hother : ∀ frame ∈ (c.finishWrite writer).2, frame.opcode ≠ .close)
    (hreader : (c.finishWrite writer).1.HoldsReader transport (reads more))
    (hwriter : (c.finishWrite writer).1.HoldsWriter transport (writes more)) :
    (c.finishWrite writer).1.beginWrite.1.Sound transport
      (more ++ (c.finishWrite writer).1.beginWrite.2.toList) := by
  have hcontinues := c.continues_finishWrite writer
  have hbegin := (c.finishWrite writer).1.continues_beginWrite
  obtain ⟨hnone, hheld⟩ := hwriter.of_not_sending (c.sending_finishWrite writer)
  have hfront := writesFront_beginWrite (hcontinues.closed.trans hopen)
    (c.sending_finishWrite writer) hheld
  have hopen' := (hbegin.closed.trans hcontinues.closed).trans hopen
  have hwrites : writes (more ++ (c.finishWrite writer).1.beginWrite.2.toList) =
      (c.finishWrite writer).1.beginWrite.2.toList := by
    rw [writes_append, hnone, List.nil_append, hfront.writes_eq]
  have hreads : reads (more ++ (c.finishWrite writer).1.beginWrite.2.toList) = reads more := by
    rw [reads_append, reads_of_writes hfront.writes_eq, List.append_nil]
  exact {
    reader := by
      rw [hreads]
      exact hreader.of_same hbegin.id hbegin.reading hbegin.reader
    writer := by
      rw [hwrites]
      exact hfront.holds
    busy := by
      intro hclosed
      exact absurd (hclosed.symm.trans hopen') (by decide)
    front := by
      intro _
      rw [hwrites]
      exact hfront
    reading := by
      intro _
      rw [hbegin.reading, hcontinues.reading, closeQueued_beginWrite, closeQueued_finishWrite,
        h.reading hopen]
    closes := by
      intro _
      rw [frames, queue_beginWrite, closeQueued_beginWrite, closeQueued_finishWrite,
        ← h.closes hopen]
      exact closes_finishWrite hopen hother }

/-- An errand settles a sound connection. -/
theorem Sound.attend (h : c.Sound transport operations) {errand : Errand}
    (hend : errand.isEnd → ∃ o ∈ operations, errand.ends o) :
    Settled transport (operations.eraseP errand.ends ++ begun (c.attend errand).2)
      (c.attend errand).1 := by
  obtain ⟨hreader, hwriter⟩ := h.returned hend
  have houtcome := c.outcome_attend errand
  generalize c.attend errand = outcome at houtcome
  cases houtcome with
  | drops hnotes =>
    rw [begun_append, hnotes.begun_eq, begun_dropped, List.append_nil, List.append_nil]
    exact settled_dropped hreader hwriter
  | breaks hopen hgrows _ =>
    exact (hgrows.settled hopen rfl hreader (h.front_finishRead hopen) (h.closes hopen)).1
  | reads hopen hgrows _ =>
    exact (hgrows.settled hopen rfl hreader (h.front_finishRead hopen) (h.closes hopen)).2
  | @writes writer hopen hother =>
    show Sound _ transport (_ ++ begun (startEffect (c.finishWrite writer).1.beginWrite.2))
    rw [begun_startEffect]
    exact h.next hopen hother hreader hwriter
  | takes hopen hgrows hsame _ =>
    rw [Errand.eraseP_of_not_end rfl]
    obtain ⟨hreader', hfront'⟩ := hgrows.halves h.reader (h.front hopen)
    have hopen' := hgrows.closed.trans hopen
    exact {
      reader := hreader'
      writer := hfront'.holds
      busy := by
        intro hclosed
        exact absurd (hclosed.symm.trans hopen') (by decide)
      front := fun _ => hfront'
      reading := by
        intro _
        rw [hgrows.reading, hsame, h.reading hopen]
      closes := fun _ => hgrows.closes_frames (h.closes hopen) }
  | ignores hclosed =>
    rw [Errand.eraseP_of_not_end rfl]
    show c.Sound transport (operations ++ [])
    rw [List.append_nil]
    exact h

end Connection

/-! ## Lives -/

/-- A connection that has just been let in has both its halves. -/
theorem Connection.settled_opened (id : ConnectionId) (transport : Transport)
    (peer : Option SocketAddress) (leftover : ReceiveBuffer) (limit : Nat) :
    let c := Connection.new id transport peer leftover limit
    Settled transport (begun c.opened.2) c.opened.1 := by
  intro c
  have hreader : c.HoldsReader transport (reads []) := .held rfl rfl
  have hqueue : c.queue.toList = [] := Fifo.toList_empty
  have hfront : c.WritesFront transport (writes []) := .idle hqueue rfl rfl
  have hframes : c.frames = [] := by
    rw [frames, hqueue]
    rfl
  have hcloses : WebSocket.closes c.frames = c.closeQueued.toNat := by
    rw [hframes]
    rfl
  obtain ⟨c', effects, hgrows, -, hends | hreads⟩ := c.processed_cases
  · show Settled transport (begun c.processed.2) c.processed.1
    rw [hends]
    exact (hgrows.settled rfl rfl hreader hfront hcloses).1
  · show Settled transport (begun c.processed.2) c.processed.1
    rw [hreads]
    exact (hgrows.settled rfl rfl hreader hfront hcloses).2

namespace Lived

variable {id : ConnectionId} {transport : Transport} {peer : Option SocketAddress}
  {leftover : ReceiveBuffer} {limit : Nat} {l : Life}

/-- In every life the connection is sound as long as it is there, and leaves nothing in flight. -/
theorem settled (h : Lived (.new id transport peer leftover limit) l) :
    Connection.Settled transport l.inFlight l.now := by
  induction h with
  | begin => exact Connection.settled_opened id transport peer leftover limit
  | @errand l errand h hadmits ih =>
    cases hnow : l.now with
    | none =>
      have hnone := ih
      rw [hnow] at hnone
      rw [Life.after_of_gone hnow hnone]
      exact ih
    | some c =>
      rw [hnow] at ih
      rw [Life.after_of_now hnow]
      exact ih.attend hadmits

theorem after_gone (h : Lived (.new id transport peer leftover limit) l) (hnow : l.now = none)
    (errand : Errand) : l.after errand = l := by
  have hnone := h.settled
  rw [hnow] at hnone
  exact Life.after_of_gone hnow hnone errand

theorem id_eq (h : Lived (.new id transport peer leftover limit) l) {c : Connection}
    (hc : l.now = some c) : c.id = id := by
  induction h generalizing c with
  | begin => exact Connection.processed_id hc
  | @errand l errand h hadmits ih =>
    cases hnow : l.now with
    | none =>
      rw [h.after_gone hnow] at hc
      exact ih hc
    | some c₀ =>
      rw [Life.after_of_now hnow] at hc
      exact (Connection.attend_id hc).trans (ih hnow)

/-- A life has effects on its own connection only. -/
theorem confined (h : Lived (.new id transport peer leftover limit) l) : Confined id l.effects := by
  induction h with
  | begin => exact Connection.confined_opened _
  | @errand l errand h hadmits ih =>
    cases hnow : l.now with
    | none =>
      rw [h.after_gone hnow]
      exact ih
    | some c =>
      rw [Life.after_of_now hnow]
      have hid := h.id_eq hnow
      exact ih.append (hid ▸ c.confined_attend errand)

end Lived

end WebSocket
