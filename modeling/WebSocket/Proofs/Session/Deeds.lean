import WebSocket.Proofs.Session.Soundness
import WebSocket.Session.Desk

/-!
# Deeds in any order

Whoever owns a connection may begin reads and writes, queue frames, close it and give back what has
ended in any order, also in orders that the engine never uses.  `Connection.Rests` is what holds all
the same: each half is with the connection or with the one operation that has it, the frame that is
being written is the first of the queue until the connection closes, and a closed connection has no
queue.  Every deed keeps this (`Connection.Rests.undergo`).  A deed touches the operations of its
own connection only (`own_undergo`, `own_undergo_of_ne`).
-/

namespace WebSocket

/-! ## Operations of one connection -/

/-- The operations of one connection. -/
def own (id : ConnectionId) (operations : List Operation) : List Operation :=
  operations.filter fun o => o.id = id

theorem own_append (id : ConnectionId) (operations more : List Operation) :
    own id (operations ++ more) = own id operations ++ own id more :=
  List.filter_append ..

namespace Operation

theorem reader?_of_ne {o : Operation} {id : ConnectionId} (h : o.id ≠ id) :
    o.reader? id = none := by
  cases o with
  | read other reader input => exact if_neg h
  | write other writer outgoing => rfl

theorem writer?_of_ne {o : Operation} {id : ConnectionId} (h : o.id ≠ id) :
    o.writer? id = none := by
  cases o with
  | read other reader input => rfl
  | write other writer outgoing => exact if_neg h

theorem isNone_reader? (o : Operation) : (o.reader? o.id).isNone = !o.isRead := by
  cases o with
  | read other reader input => simp [reader?, id, isRead]
  | write other writer outgoing => rfl

theorem isNone_writer? (o : Operation) : (o.writer? o.id).isNone = o.isRead := by
  cases o with
  | read other reader input => rfl
  | write other writer outgoing => simp [writer?, id, isRead]

end Operation

/-- What only some operations can give is found among these. -/
theorem findSome?_filter {α : Type} {f : Operation → Option α} {p : Operation → Bool}
    (h : ∀ o, p o = false → f o = none) (operations : List Operation) :
    (operations.filter p).findSome? f = operations.findSome? f := by
  induction operations with
  | nil => rfl
  | cons o later ih =>
    cases hp : p o with
    | true => rw [List.filter_cons_of_pos hp, List.findSome?_cons, List.findSome?_cons, ih]
    | false =>
      rw [List.filter_cons_of_neg (by rw [hp]; decide), List.findSome?_cons, h o hp]
      exact ih

theorem findSome?_own {α : Type} {f : Operation → Option α} {id : ConnectionId}
    (h : ∀ o : Operation, o.id ≠ id → f o = none) (operations : List Operation) :
    (own id operations).findSome? f = operations.findSome? f :=
  findSome?_filter (fun o ho => h o (by simpa using ho)) operations

theorem own_filter (id : ConnectionId) (p : Operation → Bool) (operations : List Operation) :
    own id (operations.filter p) = (own id operations).filter p :=
  List.filter_comm ..

/-- What leaves the operations of others alone leaves all of theirs. -/
theorem own_filter_of_ne {id : ConnectionId} {p : Operation → Bool}
    (h : ∀ o : Operation, o.id = id → p o = true) (operations : List Operation) :
    own id (operations.filter p) = own id operations := by
  rw [own_filter, List.filter_eq_self]
  intro o hmem
  exact h o (by simpa using (List.mem_filter.mp hmem).2)

namespace Connection

/-! ## Beginnings -/

/-- A read begins with the half to read from, or not at all. -/
theorem beginRead_cases (c : Connection) :
    c.beginRead = (c, none) ∨ ∃ reader, c.closed = false ∧ c.reader = some reader ∧
      c.beginRead = (c.lentReader, some (.read c.id reader c.input)) := by
  unfold beginRead
  cases hclosed : c.closed with
  | true => exact .inl rfl
  | false =>
    rw [Bool.false_or]
    split
    · exact .inl rfl
    · cases hreader : c.reader with
      | none => exact .inl rfl
      | some reader => exact .inr ⟨reader, rfl, rfl, by rw [lentReader, hclosed]⟩

/-- The connection with its half to write to taken away. -/
def lentWriter (c : Connection) : Connection := { c with writer := none, sending := true }

/-- A write begins with the first frame and the half to write to, or not at all. -/
theorem beginWrite_cases (c : Connection) :
    c.beginWrite = (c, none) ∨ ∃ writer outgoing, c.closed = false ∧ c.sending = false ∧
      c.queue.head? = some outgoing ∧ c.writer = some writer ∧
      c.beginWrite = (c.lentWriter, some (.write c.id writer outgoing)) := by
  unfold beginWrite
  cases hclosed : c.closed with
  | true => exact .inl rfl
  | false =>
    cases hsending : c.sending with
    | true => exact .inl rfl
    | false =>
      cases hqueue : c.queue.head? with
      | none => exact .inl rfl
      | some outgoing =>
        cases hwriter : c.writer with
        | none => exact .inl rfl
        | some writer =>
          exact .inr ⟨writer, outgoing, rfl, rfl, rfl, rfl, by simp [lentWriter, hclosed]⟩

/-- A frame is refused, or joins the queue and is written if it is alone there. -/
theorem sendFrame_cases (c : Connection) (outgoing : Outgoing) :
    (c.closed = true ∧ c.sendFrame outgoing = (c, false, none)) ∨
      (c.closed = false ∧ (c.sendFrame outgoing = (c.pushed outgoing, true, none) ∨
        c.sendFrame outgoing = ((c.pushed outgoing).beginWrite.1, true,
          (c.pushed outgoing).beginWrite.2))) := by
  unfold sendFrame
  by_cases hclosed : c.closed = true
  · rw [if_pos hclosed]
    exact .inl ⟨hclosed, rfl⟩
  · rw [if_neg hclosed]
    refine .inr ⟨Bool.eq_false_iff.mpr hclosed, ?_⟩
    dsimp only
    split
    · exact .inr rfl
    · exact .inl rfl

theorem of_begun_read {c : Connection} {o : Operation} (h : c.beginRead.2 = some o) :
    o.id = c.id := by
  rcases c.beginRead_cases with hread | ⟨reader, -, -, hread⟩
  · rw [hread] at h
    cases h
  · rw [hread] at h
    cases h
    rfl

theorem of_begun_write {c : Connection} {o : Operation} (h : c.beginWrite.2 = some o) :
    o.id = c.id := by
  rcases c.beginWrite_cases with hwrite | ⟨writer, outgoing, -, -, -, -, hwrite⟩
  · rw [hwrite] at h
    cases h
  · rw [hwrite] at h
    cases h
    rfl

theorem of_begun_send {c : Connection} {outgoing : Outgoing} {o : Operation}
    (h : (c.sendFrame outgoing).2.2 = some o) : o.id = c.id := by
  rcases c.sendFrame_cases outgoing with ⟨-, hsend⟩ | ⟨-, hsend | hsend⟩
  · rw [hsend] at h
    cases h
  · rw [hsend] at h
    cases h
  · rw [hsend] at h
    have hid : o.id = (c.pushed outgoing).id := of_begun_write h
    exact hid

/-! ## The operations of others -/

theorem own_toList {operation : Option Operation} {id : ConnectionId}
    (h : ∀ o ∈ operation, o.id = id) : own id operation.toList = operation.toList := by
  cases operation with
  | none => rfl
  | some o => simp [own, h o rfl]

theorem own_toList_of_ne {operation : Option Operation} {id : ConnectionId}
    (h : ∀ o ∈ operation, o.id ≠ id) : own id operation.toList = [] := by
  cases operation with
  | none => rfl
  | some o => simp [own, h o rfl]

variable {c : Connection} {id : ConnectionId} {operations : List Operation}

/-- A deed does to a connection and its own operations what it would do if there were no others. -/
theorem own_undergo (c : Connection) (operations : List Operation) (deed : Deed) :
    (c.undergo operations deed).connection = (c.undergo (own c.id operations) deed).connection ∧
      own c.id (c.undergo operations deed).inFlight =
        (c.undergo (own c.id operations) deed).inFlight ∧
      (c.undergo operations deed).answer = (c.undergo (own c.id operations) deed).answer := by
  cases deed with
  | beginRead =>
    refine ⟨rfl, ?_, rfl⟩
    show own c.id (operations ++ c.beginRead.2.toList) = _
    rw [own_append, own_toList fun o h => of_begun_read h]
    rfl
  | beginWrite =>
    refine ⟨rfl, ?_, rfl⟩
    show own c.id (operations ++ c.beginWrite.2.toList) = _
    rw [own_append, own_toList fun o h => of_begun_write h]
    rfl
  | send outgoing =>
    refine ⟨rfl, ?_, rfl⟩
    show own c.id (operations ++ (c.sendFrame outgoing).2.2.toList) = _
    rw [own_append, own_toList fun o h => of_begun_send h]
    rfl
  | markClosing => exact ⟨rfl, rfl, rfl⟩
  | nextFrame => exact ⟨rfl, rfl, rfl⟩
  | close => exact ⟨rfl, rfl, rfl⟩
  | finishRead input =>
    simp only [undergo]
    rw [findSome?_own fun o => Operation.reader?_of_ne]
    cases operations.findSome? (·.reader? c.id) with
    | none => exact ⟨rfl, rfl, rfl⟩
    | some reader => exact ⟨rfl, own_filter .., rfl⟩
  | finishWrite =>
    simp only [undergo]
    rw [findSome?_own fun o => Operation.writer?_of_ne]
    cases operations.findSome? (·.writer? c.id) with
    | none => exact ⟨rfl, rfl, rfl⟩
    | some writer => exact ⟨rfl, own_filter .., rfl⟩

/-- A deed leaves the operations of other connections. -/
theorem own_undergo_of_ne (hne : c.id ≠ id) (operations : List Operation) (deed : Deed) :
    own id (c.undergo operations deed).inFlight = own id operations := by
  have hbegun {operation : Option Operation} (h : ∀ o ∈ operation, o.id = c.id) :
      own id (operations ++ operation.toList) = own id operations := by
    rw [own_append, own_toList_of_ne fun o hmem => (h o hmem).trans_ne hne, List.append_nil]
  cases deed with
  | beginRead => exact hbegun fun o h => of_begun_read h
  | beginWrite => exact hbegun fun o h => of_begun_write h
  | send outgoing => exact hbegun fun o h => of_begun_send h
  | markClosing => rfl
  | nextFrame => rfl
  | close => rfl
  | finishRead input =>
    simp only [undergo]
    cases operations.findSome? (·.reader? c.id) with
    | none => rfl
    | some reader =>
      refine own_filter_of_ne (fun o ho => ?_) operations
      rw [Operation.reader?_of_ne (ho.trans_ne hne.symm)]
      rfl
  | finishWrite =>
    simp only [undergo]
    cases operations.findSome? (·.writer? c.id) with
    | none => rfl
    | some writer =>
      refine own_filter_of_ne (fun o ho => ?_) operations
      rw [Operation.writer?_of_ne (ho.trans_ne hne.symm)]
      rfl

/-! ## What every deed keeps -/

theorem HoldsReader.of_some {transport reader : Transport} (h : c.HoldsReader transport operations)
    (hreader : c.reader = some reader) : operations = [] ∧ reader = transport := by
  cases h with
  | held _ hheld => exact ⟨rfl, Option.some.inj (hreader.symm.trans hheld)⟩
  | lent _ hnone => exact absurd (hreader.symm.trans hnone) (by nofun)

/-- What is true of a connection and its operations whatever has been done to it. -/
structure Rests (c : Connection) (operations : List Operation) : Prop where
  /-- Each half is with the connection, or with the one operation that has it. -/
  halves : ∃ transport, c.HoldsReader transport (reads operations) ∧
    c.HoldsWriter transport (writes operations)
  /-- The frame that is being written is the first of the queue. -/
  front : c.closed = false → ∀ id writer outgoing, .write id writer outgoing ∈ operations →
    c.queue.head? = some outgoing
  emptied : c.closed = true → c.queue.toList = []

theorem rests_new (id : ConnectionId) (transport : Transport) (peer : Option SocketAddress)
    (leftover : ReceiveBuffer) (limit : Nat) :
    (new id transport peer leftover limit).Rests [] where
  halves := ⟨transport, .held rfl rfl, .held rfl rfl⟩
  front := by
    intro _ id writer outgoing h
    cases h
  emptied := fun h => by cases h

namespace Rests

/-- Nothing but the input, the decoder and the mark of a Close frame has changed. -/
theorem of_same {c' : Connection} (h : c.Rests operations) (hid : c'.id = c.id)
    (hreading : c'.reading = c.reading) (hreader : c'.reader = c.reader)
    (hsending : c'.sending = c.sending) (hwriter : c'.writer = c.writer)
    (hqueue : c'.queue = c.queue) (hclosed : c'.closed = c.closed) : c'.Rests operations where
  halves := by
    obtain ⟨transport, hr, hw⟩ := h.halves
    exact ⟨transport, hr.of_same hid hreading hreader, hw.of_same hid hsending hwriter⟩
  front := by
    rw [hclosed, hqueue]
    exact h.front
  emptied := by
    rw [hclosed, hqueue]
    exact h.emptied

theorem beginRead (h : c.Rests operations) :
    c.beginRead.1.Rests (operations ++ c.beginRead.2.toList) := by
  rcases c.beginRead_cases with hread | ⟨reader, hopen, hreader, hread⟩
  · rw [hread, Option.toList_none, List.append_nil]
    exact h
  · rw [hread]
    show c.lentReader.Rests (operations ++ [.read c.id reader c.input])
    obtain ⟨transport, hr, hw⟩ := h.halves
    obtain ⟨hreads, rfl⟩ := hr.of_some hreader
    exact {
      halves := by
        refine ⟨reader, ?_, ?_⟩
        · rw [reads_append, hreads]
          exact .lent rfl rfl
        · rw [writes_append, show writes [.read c.id reader c.input] = [] from rfl,
            List.append_nil]
          exact hw.of_same rfl rfl rfl
      front := by
        intro _ id writer outgoing hmem
        rcases List.mem_append.mp hmem with hmem | hmem
        · exact h.front hopen id writer outgoing hmem
        · cases List.mem_singleton.mp hmem
      emptied := fun hclosed => absurd (hopen.symm.trans hclosed) (by decide) }

theorem beginWrite (h : c.Rests operations) :
    c.beginWrite.1.Rests (operations ++ c.beginWrite.2.toList) := by
  rcases c.beginWrite_cases with hwrite | ⟨writer, outgoing, hopen, hidle, hqueue, hwriter, hwrite⟩
  · rw [hwrite, Option.toList_none, List.append_nil]
    exact h
  · rw [hwrite]
    show c.lentWriter.Rests (operations ++ [.write c.id writer outgoing])
    obtain ⟨transport, hr, hw⟩ := h.halves
    obtain ⟨hwrites, hheld⟩ := hw.of_not_sending hidle
    obtain rfl : writer = transport := Option.some.inj (hwriter.symm.trans hheld)
    exact {
      halves := by
        refine ⟨writer, ?_, ?_⟩
        · rw [reads_append, show reads [.write c.id writer outgoing] = [] from rfl,
            List.append_nil]
          exact hr.of_same rfl rfl rfl
        · rw [writes_append, hwrites]
          exact .lent rfl rfl
      front := by
        intro _ id other sent hmem
        rcases List.mem_append.mp hmem with hmem | hmem
        · -- No other write is in flight.
          have hmem : .write id other sent ∈ writes operations :=
            List.mem_filter.mpr ⟨hmem, rfl⟩
          rw [hwrites] at hmem
          cases hmem
        · cases List.mem_singleton.mp hmem
          exact hqueue
      emptied := fun hclosed => absurd (hopen.symm.trans hclosed) (by decide) }

theorem pushed (h : c.Rests operations) (hopen : c.closed = false) (outgoing : Outgoing) :
    (c.pushed outgoing).Rests operations where
  halves := by
    obtain ⟨transport, hr, hw⟩ := h.halves
    exact ⟨transport, hr.of_same rfl rfl rfl, hw.of_same rfl rfl rfl⟩
  front := by
    intro _ id writer sent hmem
    have hfirst := h.front hopen id writer sent hmem
    rw [Fifo.head?_eq] at hfirst ⊢
    show (c.queue.push outgoing).toList.head? = _
    rw [Fifo.toList_push, List.head?_append, hfirst]
    rfl
  emptied := fun hclosed => absurd (hopen.symm.trans hclosed) (by decide)

theorem send (h : c.Rests operations) (outgoing : Outgoing) :
    (c.sendFrame outgoing).1.Rests (operations ++ (c.sendFrame outgoing).2.2.toList) := by
  rcases c.sendFrame_cases outgoing with ⟨-, hsend⟩ | ⟨hopen, hsend | hsend⟩
  · rw [hsend, Option.toList_none, List.append_nil]
    exact h
  · rw [hsend, Option.toList_none, List.append_nil]
    exact h.pushed hopen outgoing
  · rw [hsend]
    exact (h.pushed hopen outgoing).beginWrite

theorem close (h : c.Rests operations) : c.close.1.Rests operations := by
  unfold Connection.close
  split
  · exact h
  · obtain ⟨transport, hr, hw⟩ := h.halves
    exact {
      halves := ⟨transport, hr.of_same rfl rfl rfl, hw.of_same rfl rfl rfl⟩
      front := fun hopen => by cases hopen
      emptied := fun _ => Fifo.toList_empty }

theorem id_of_mem (h : c.Rests operations) {o : Operation} (hmem : o ∈ operations) :
    o.id = c.id := by
  obtain ⟨transport, hr, hw⟩ := h.halves
  cases hkind : o.isRead with
  | true =>
    have hmem : o ∈ reads operations := List.mem_filter.mpr ⟨hmem, hkind⟩
    obtain ⟨-, -, input, hreads⟩ := hr.of_mem hmem
    rw [hreads, List.mem_singleton] at hmem
    rw [hmem]
    rfl
  | false =>
    have hmem : o ∈ writes operations := List.mem_filter.mpr ⟨hmem, by rw [hkind]; rfl⟩
    obtain ⟨-, -, outgoing, hwrites⟩ := hw.of_mem hmem
    rw [hwrites, List.mem_singleton] at hmem
    rw [hmem]
    rfl

/-- The writes are left when the read is given back. -/
theorem filter_reader (h : c.Rests operations) :
    (operations.filter fun o => (o.reader? c.id).isNone) = writes operations := by
  refine List.filter_congr fun o hmem => ?_
  rw [← h.id_of_mem hmem, Operation.isNone_reader?]

theorem filter_writer (h : c.Rests operations) :
    (operations.filter fun o => (o.writer? c.id).isNone) = reads operations := by
  refine List.filter_congr fun o hmem => ?_
  rw [← h.id_of_mem hmem, Operation.isNone_writer?]

theorem findSome?_reader (operations : List Operation) (id : ConnectionId) :
    operations.findSome? (·.reader? id) = (reads operations).findSome? (·.reader? id) := by
  refine (findSome?_filter (fun o ho => ?_) operations).symm
  cases o with
  | read => cases ho
  | write => rfl

theorem findSome?_writer (operations : List Operation) (id : ConnectionId) :
    operations.findSome? (·.writer? id) = (writes operations).findSome? (·.writer? id) := by
  refine (findSome?_filter (fun o ho => ?_) operations).symm
  cases o with
  | read => rfl
  | write => cases ho

theorem finishRead (h : c.Rests operations) {reader : Transport} (input : ReceiveBuffer)
    (hhas : operations.findSome? (·.reader? c.id) = some reader) :
    (c.finishRead reader input).Rests (writes operations) := by
  obtain ⟨transport, hr, hw⟩ := h.halves
  rw [findSome?_reader] at hhas
  obtain rfl : reader = transport := by
    cases hreads : reads operations with
    | nil =>
      rw [hreads] at hhas
      cases hhas
    | cons o later =>
      obtain ⟨-, -, lent, hlent⟩ := hr.of_mem (by rw [hreads]; exact List.mem_cons_self)
      rw [hlent] at hhas
      simpa [Operation.reader?] using hhas.symm
  have hreads : reads (writes operations) = [] := by simp [reads, writes]
  have hwrites : writes (writes operations) = writes operations := by simp [writes]
  exact {
    halves := by
      refine ⟨reader, ?_, ?_⟩
      · rw [hreads]
        exact .held rfl rfl
      · rw [hwrites]
        exact hw.of_same rfl rfl rfl
    front := by
      intro hopen id writer outgoing hmem
      exact h.front hopen id writer outgoing (List.mem_filter.mp hmem).1
    emptied := h.emptied }

theorem finishWrite (h : c.Rests operations) {writer : Transport}
    (hhas : operations.findSome? (·.writer? c.id) = some writer) :
    (c.finishWrite writer).1.Rests (reads operations) := by
  obtain ⟨transport, hr, hw⟩ := h.halves
  rw [findSome?_writer] at hhas
  obtain rfl : writer = transport := by
    cases hwrites : writes operations with
    | nil =>
      rw [hwrites] at hhas
      cases hhas
    | cons o later =>
      obtain ⟨-, -, lent, hlent⟩ := hw.of_mem (by rw [hwrites]; exact List.mem_cons_self)
      rw [hlent] at hhas
      simpa [Operation.writer?] using hhas.symm
  have hsame := c.continues_finishWrite writer
  have hreads : reads (reads operations) = reads operations := by simp [reads]
  have hwrites : writes (reads operations) = [] := by simp [reads, writes]
  exact {
    halves := by
      refine ⟨writer, ?_, ?_⟩
      · rw [hreads]
        exact hr.of_same hsame.id hsame.reading hsame.reader
      · rw [hwrites]
        exact .held (c.sending_finishWrite writer) (c.writer_finishWrite writer)
    front := by
      intro _ id other outgoing hmem
      cases (List.mem_filter.mp hmem).2
    emptied := by
      intro hclosed
      rw [hsame.closed] at hclosed
      rw [Connection.finishWrite, if_pos hclosed]
      exact h.emptied hclosed }

/-- Every deed keeps what is true of a connection and its operations. -/
theorem undergo (h : c.Rests operations) (deed : Deed) :
    (c.undergo operations deed).connection.Rests (c.undergo operations deed).inFlight := by
  cases deed with
  | beginRead => exact h.beginRead
  | beginWrite => exact h.beginWrite
  | send outgoing => exact h.send outgoing
  | markClosing => exact h.of_same rfl rfl rfl rfl rfl rfl rfl
  | nextFrame => exact h.of_same rfl rfl rfl rfl rfl rfl rfl
  | close => exact h.close
  | finishRead input =>
    simp only [Connection.undergo]
    cases hhas : operations.findSome? (·.reader? c.id) with
    | none => exact h
    | some reader =>
      show (c.finishRead reader input).Rests (operations.filter fun o => (o.reader? c.id).isNone)
      rw [h.filter_reader]
      exact h.finishRead input hhas
  | finishWrite =>
    simp only [Connection.undergo]
    cases hhas : operations.findSome? (·.writer? c.id) with
    | none => exact h
    | some writer =>
      show (c.finishWrite writer).1.Rests (operations.filter fun o => (o.writer? c.id).isNone)
      rw [h.filter_writer]
      exact h.finishWrite hhas

end Rests

/-! ## From live to removable -/

theorem undergo_id (c : Connection) (operations : List Operation) (deed : Deed) :
    (c.undergo operations deed).connection.id = c.id := by
  cases deed with
  | beginRead => exact c.beginRead_id
  | beginWrite => exact c.continues_beginWrite.id
  | send outgoing =>
    show (c.sendFrame outgoing).1.id = c.id
    rcases c.sendFrame_cases outgoing with ⟨-, hsend⟩ | ⟨-, hsend | hsend⟩
    · rw [hsend]
    · rw [hsend]
      rfl
    · rw [hsend]
      exact (c.pushed outgoing).continues_beginWrite.id
  | markClosing => rfl
  | nextFrame => rfl
  | close => exact c.close_id
  | finishRead input =>
    simp only [undergo]
    cases operations.findSome? (·.reader? c.id) <;> rfl
  | finishWrite =>
    simp only [undergo]
    cases operations.findSome? (·.writer? c.id) with
    | none => rfl
    | some writer => exact (c.continues_finishWrite writer).id

theorem close_snd (c : Connection) : c.close.2 = !c.closed := by
  unfold Connection.close
  split
  · rename_i hclosed
    rw [hclosed]
    rfl
  · rename_i hopen
    rw [Bool.eq_false_iff.mpr hopen]
    rfl

/-- Only closing closes a connection. -/
theorem closed_undergo (c : Connection) (operations : List Operation) (deed : Deed) :
    (c.undergo operations deed).connection.closed = (c.closed || decide (deed = .close)) := by
  cases deed with
  | beginRead => exact c.closed_beginRead.trans (Bool.or_false _).symm
  | beginWrite => exact c.continues_beginWrite.closed.trans (Bool.or_false _).symm
  | send outgoing =>
    show (c.sendFrame outgoing).1.closed = _
    rcases c.sendFrame_cases outgoing with ⟨-, hsend⟩ | ⟨-, hsend | hsend⟩
    · rw [hsend]
      exact (Bool.or_false _).symm
    · rw [hsend]
      exact (Bool.or_false _).symm
    · rw [hsend]
      exact (c.pushed outgoing).continues_beginWrite.closed.trans (Bool.or_false _).symm
  | markClosing => exact (Bool.or_false _).symm
  | nextFrame => exact (Bool.or_false _).symm
  | close => exact c.closed_close.trans (Bool.or_true _).symm
  | finishRead input =>
    simp only [undergo]
    cases operations.findSome? (·.reader? c.id) <;> exact (Bool.or_false _).symm
  | finishWrite =>
    simp only [undergo]
    cases operations.findSome? (·.writer? c.id) with
    | none => exact (Bool.or_false _).symm
    | some writer => exact (c.continues_finishWrite writer).closed.trans (Bool.or_false _).symm

/-- Nothing begins for a closed connection, and it takes no frame. -/
theorem undergo_of_closed (hclosed : c.closed = true) (operations : List Operation) :
    c.undergo operations .beginRead = ⟨c, operations, none, .nothing⟩ ∧
      c.undergo operations .beginWrite = ⟨c, operations, none, .nothing⟩ ∧
      c.undergo operations .close = ⟨c, operations, none, .told false⟩ ∧
      ∀ outgoing, c.undergo operations (.send outgoing) = ⟨c, operations, none, .told false⟩ := by
  simp [undergo, Connection.beginRead, Connection.beginWrite, Connection.close, sendFrame, hclosed]

/-- What a deed does to a closed connection ends operations and begins none. -/
theorem flags_undergo_of_closed (hclosed : c.closed = true) (operations : List Operation)
    (deed : Deed) :
    ((c.undergo operations deed).connection.reading = true → c.reading = true) ∧
      ((c.undergo operations deed).connection.sending = true → c.sending = true) := by
  obtain ⟨hread, hwrite, hclose, hsend⟩ := undergo_of_closed hclosed operations
  cases deed with
  | beginRead => rw [hread]; exact ⟨fun h => h, fun h => h⟩
  | beginWrite => rw [hwrite]; exact ⟨fun h => h, fun h => h⟩
  | send outgoing => rw [hsend]; exact ⟨fun h => h, fun h => h⟩
  | markClosing => exact ⟨fun h => h, fun h => h⟩
  | nextFrame => exact ⟨fun h => h, fun h => h⟩
  | close => rw [hclose]; exact ⟨fun h => h, fun h => h⟩
  | finishRead input =>
    simp only [undergo]
    cases operations.findSome? (·.reader? c.id) with
    | none => exact ⟨fun h => h, fun h => h⟩
    | some reader => exact ⟨fun h => (Bool.false_ne_true h).elim, fun h => h⟩
  | finishWrite =>
    simp only [undergo]
    cases operations.findSome? (·.writer? c.id) with
    | none => exact ⟨fun h => h, fun h => h⟩
    | some writer =>
      refine ⟨fun h => (c.continues_finishWrite writer).reading.symm.trans h, fun h => ?_⟩
      exact absurd ((c.sending_finishWrite writer).symm.trans h) (by decide)

end Connection

/-- How far a connection has come. -/
def Lifecycle.rank : Lifecycle → Nat
  | live => 0
  | closing => 1
  | removable => 2

namespace Connection

variable {c : Connection} {id : ConnectionId} {operations : List Operation}

theorem lifecycle_eq_live_iff : c.lifecycle = .live ↔ c.closed = false := by
  unfold lifecycle
  cases c.closed with
  | false => simp
  | true => cases (c.reading || c.sending) <;> simp

theorem close_snd_eq_decide (c : Connection) : c.close.2 = decide (c.lifecycle = .live) := by
  rw [close_snd, Bool.eq_iff_iff, decide_eq_true_iff, lifecycle_eq_live_iff, Bool.not_eq_true']

/-- No deed brings a connection back to where it was before. -/
theorem rank_le_undergo (c : Connection) (operations : List Operation) (deed : Deed) :
    c.lifecycle.rank ≤ (c.undergo operations deed).connection.lifecycle.rank := by
  cases hclosed : c.closed with
  | false =>
    rw [lifecycle_eq_live_iff.mpr hclosed]
    exact Nat.zero_le _
  | true =>
    have hafter : (c.undergo operations deed).connection.closed = true := by
      rw [closed_undergo, hclosed, Bool.true_or]
    obtain ⟨hreading, hsending⟩ := flags_undergo_of_closed hclosed operations deed
    have hbusy : ((c.undergo operations deed).connection.reading ||
        (c.undergo operations deed).connection.sending) = true →
        (c.reading || c.sending) = true := by
      rw [Bool.or_eq_true, Bool.or_eq_true]
      exact Or.imp hreading hsending
    unfold lifecycle
    rw [if_pos hclosed, if_pos hafter]
    by_cases hlater : ((c.undergo operations deed).connection.reading ||
        (c.undergo operations deed).connection.sending) = true
    · rw [if_pos (hbusy hlater)]
      exact Nat.le_of_eq (congrArg Lifecycle.rank (if_pos hlater).symm)
    · rw [if_neg hlater]
      split <;> decide

/-- What is given back to a connection is the frame that it began to write, unless it has closed. -/
theorem Rests.answer_finishWrite (h : c.Rests operations) {writer : Transport} {outgoing : Outgoing}
    (hmem : .write id writer outgoing ∈ operations) :
    (c.undergo operations .finishWrite).answer =
      .written (if c.closed then none else some outgoing.frame) := by
  obtain rfl : id = c.id := h.id_of_mem hmem
  have hhas : (operations.findSome? (·.writer? c.id)).isSome = true :=
    List.findSome?_isSome_iff.mpr ⟨_, hmem, by simp [Operation.writer?]⟩
  obtain ⟨half, hhalf⟩ := Option.isSome_iff_exists.mp hhas
  simp only [Connection.undergo, hhalf]
  cases hclosed : c.closed with
  | true => simp [Connection.finishWrite, hclosed]
  | false =>
    have hfirst := h.front hclosed _ _ _ hmem
    rw [Fifo.head?_eq] at hfirst
    have hframe := (frames_finishWrite hclosed half).1
    rw [hframe, frames, List.head?_map, hfirst]
    rfl

end Connection

end WebSocket
