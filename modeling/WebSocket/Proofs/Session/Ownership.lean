import WebSocket.Proofs.Session.Order

/-!
# Ownership and progress

Between two pieces of mail the flags of every connection, the halves that it has given away and the
operations in flight are in step, nothing is in flight for a connection that is not in the table,
and no closed connection stays there without an operation in flight (`Reached.owned`).

An open connection never stalls: it writes while there is something in its queue, and it reads until
it has the answer to a Close frame in its queue (`Reached.inFlight_of_open`).
-/

namespace WebSocket

/-! ## Completions of connections that are not there -/

/-- Effects that report no completion for a connection that is not in the table. -/
def Strayless (effects : List Effect) : Prop :=
  ∀ id, .report (.strayRead id) ∉ effects ∧ .report (.strayWrite id) ∉ effects

theorem Strayless.nil : Strayless [] := fun _ => ⟨nofun, nofun⟩

theorem Strayless.append {effects more : List Effect} (h : Strayless effects)
    (h' : Strayless more) : Strayless (effects ++ more) := by
  intro id
  simp only [List.mem_append, not_or]
  exact ⟨⟨(h id).1, (h' id).1⟩, ⟨(h id).2, (h' id).2⟩⟩

theorem Confined.strayless {id : ConnectionId} {effects : List Effect}
    (h : Confined id effects) : Strayless effects :=
  h.stray_not_mem

namespace Engine

variable {e : Engine}

theorem nothing_of_absent {mail : Mail} {id : ConnectionId} {errand : Errand}
    (hmail : mail.errand? = some (id, errand)) (hend : errand.isEnd = false)
    (h : e.table.find? id = none) : e.dispatch mail = (e, []) := by
  cases mail with
  | completion completion =>
    cases completion <;> cases hmail <;> cases hend
  | request request =>
    cases request with
    | send other message loan => cases hmail; simp only [dispatch, send, h]
    | drop other => cases hmail; simp only [dispatch, drop, h]
    | closeAll => cases hmail

theorem strayless_drop (h : e.table.Numbered) (id : ConnectionId) : Strayless (e.drop id).2 := by
  cases hc : e.table.find? id with
  | none =>
    simp only [drop, hc]
    exact Strayless.nil
  | some c =>
    rw [drop_eq hc (h.id_of_find? hc)]
    exact c.confined_dropped.strayless

theorem strayless_dropAll (h : e.table.Numbered) (ids : List ConnectionId) :
    Strayless (e.dropAll ids).2 := by
  induction ids generalizing e with
  | nil => exact Strayless.nil
  | cons id ids ih => exact (strayless_drop h id).append (ih (numbered_drop h id))

/-- Mail whose connection is in the table, if it is the end of an operation, leads to no report of
a completion for a connection that is not there. -/
theorem strayless_dispatch (h : e.table.Numbered) {mail : Mail}
    (hknown : ∀ id errand, mail.errand? = some (id, errand) → errand.isEnd →
      e.table.find? id ≠ none) : Strayless (e.dispatch mail).2 := by
  rcases mail.kinds with ⟨transport, peer, leftover, rfl⟩ | rfl | ⟨id, errand, herrand⟩
  · cases hstopping : e.stopping with
    | true =>
      have hconfined : Confined ⟨0⟩ [.release transport] := .cons trivial .nil
      simpa only [dispatch, register, hstopping, if_true] using hconfined.strayless
    | false =>
      obtain ⟨-, hregister⟩ := register_eq h hstopping transport peer leftover
      simp only [dispatch, hregister]
      exact (Connection.confined_opened _).strayless
  · have hall := strayless_dropAll (e := { e with stopping := true }) h e.table.ids
    have hfirst : Confined ⟨0⟩ [.report (.closingAll e.table.size)] := .cons trivial .nil
    exact hfirst.strayless.append hall
  · cases hc : e.table.find? id with
    | none =>
      have hend : errand.isEnd = false := by
        rw [← Bool.not_eq_true]
        intro hend
        exact hknown id errand herrand hend hc
      rw [nothing_of_absent herrand hend hc]
      exact Strayless.nil
    | some c =>
      rw [dispatch_of_errand herrand hc (h.id_of_find? hc)]
      exact (c.confined_attend errand).strayless

end Engine

/-! ## Ownership -/

namespace Course

def operationsOf (s : Course) (id : ConnectionId) : List Operation :=
  s.inFlight.filter (·.id = id)

def readsOf (s : Course) (id : ConnectionId) : List Operation :=
  s.inFlight.filter fun o => decide (o.id = id) && o.isRead

def writesOf (s : Course) (id : ConnectionId) : List Operation :=
  s.inFlight.filter fun o => decide (o.id = id) && !o.isRead

/-- The table and the operations in flight are in step. -/
structure Owned (s : Course) : Prop where
  reading : ∀ id c, s.engine.table.find? id = some c →
    (c.reading = true ↔ c.reader = none) ∧ (c.reader = none ↔ (s.readsOf id).length = 1)
  sending : ∀ id c, s.engine.table.find? id = some c →
    (c.sending = true ↔ c.writer = none) ∧ (c.writer = none ↔ (s.writesOf id).length = 1)
  single : ∀ id, (s.readsOf id).length ≤ 1 ∧ (s.writesOf id).length ≤ 1
  /-- Nothing is in flight for a number that is not in the table. -/
  absent : ∀ id, s.engine.table.find? id = none → ∀ o ∈ s.inFlight, o.id ≠ id
  /-- No completion for a number that is not in the table was ever met. -/
  known : Strayless s.effects
  /-- A closed connection waits for the end of an operation, and none is left that could go. -/
  erased : ∀ id c, s.engine.table.find? id = some c →
    (c.closed = true → ∃ o ∈ s.inFlight, o.id = id) ∧ c.isRemovable = false

variable {s : Course} {id : ConnectionId} {l : Life}

theorem readsOf_eq (s : Course) (id : ConnectionId) :
    s.readsOf id = reads (s.inFlight.filter (·.id = id)) := by
  rw [readsOf, reads, List.filter_filter]
  congr 1
  funext o
  exact Bool.and_comm ..

theorem writesOf_eq (s : Course) (id : ConnectionId) :
    s.writesOf id = writes (s.inFlight.filter (·.id = id)) := by
  rw [writesOf, writes, List.filter_filter]
  congr 1
  funext o
  exact Bool.and_comm ..

/-- What is in flight in the life of a connection is in flight in the course. -/
theorem Shows.mem (h : s.Shows id l) {o : Operation} (hmem : o ∈ l.inFlight) :
    o ∈ s.inFlight ∧ o.id = id := by
  rw [← h.inFlight] at hmem
  obtain ⟨hflight, hid⟩ := List.mem_filter.mp hmem
  exact ⟨hflight, of_decide_eq_true hid⟩

end Course

namespace Reached

variable {limit : Nat} {mails : List Mail} {s : Course} {id : ConnectionId} {c : Connection}

/-- A connection in the table is sound with the operations in flight for it. -/
theorem sound (h : Reached limit mails s) (hc : s.engine.table.find? id = some c) :
    ∃ transport l, streamOf? mails id = some transport ∧ s.Shows id l ∧
      c.Sound transport l.inFlight ∧ Connection.Ordered (effectsOn id s.effects) (some c) := by
  cases hstream : streamOf? mails id with
  | none =>
    have hnone := (h.nothing_of_unknown hstream).1
    exact absurd (hc.symm.trans hnone) nofun
  | some transport =>
    obtain ⟨peer, leftover, l, hlived, hs⟩ := h.shows_of_known hstream
    have hnow := hs.found.symm.trans hc
    have hsound := hlived.settled
    have hordered := hlived.ordered.of_same (hs.joined_eq hlived.confined)
      (hs.begun_eq hlived.confined)
    rw [hnow] at hsound hordered
    exact ⟨transport, l, rfl, hs, hsound, hordered⟩

/-- Nothing is in flight for a number that is not in the table. -/
theorem absent (h : Reached limit mails s) (hc : s.engine.table.find? id = none) :
    s.inFlight.filter (·.id = id) = [] := by
  cases hstream : streamOf? mails id with
  | none => exact (h.nothing_of_unknown hstream).2.1
  | some transport =>
    obtain ⟨peer, leftover, l, hlived, hs⟩ := h.shows_of_known hstream
    have hsettled := hlived.settled
    rw [← hs.found, hc] at hsettled
    rw [hs.inFlight]
    exact hsettled

/-- Writes begin in the order in which the frames joined the queue. -/
theorem begins (h : Reached limit mails s) {transport : Transport}
    (hstream : streamOf? mails id = some transport) :
    Connection.Begins (effectsOn id s.effects) := by
  obtain ⟨peer, leftover, l, hlived, hs⟩ := h.shows_of_known hstream
  exact (hlived.ordered.of_same (hs.joined_eq hlived.confined)
    (hs.begun_eq hlived.confined)).toBegins

theorem strayless (h : Reached limit mails s) : Strayless s.effects := by
  induction h with
  | start => exact Strayless.nil
  | @mail mails s mail h hadmits ih =>
    refine ih.append (Engine.strayless_dispatch h.numbered ?_)
    intro id errand herrand hend hnone
    obtain ⟨o, hmem, hends⟩ := hadmits id errand herrand hend
    rw [mail.ends_of_errand herrand, Bool.and_eq_true, beq_iff_eq] at hends
    have hflight : o ∈ s.inFlight.filter (·.id = id) :=
      List.mem_filter.mpr ⟨hmem, decide_eq_true hends.2⟩
    rw [h.absent hnone] at hflight
    cases hflight

/-- At most one read and one write are in flight for a connection. -/
theorem single (h : Reached limit mails s) (id : ConnectionId) :
    (s.readsOf id).length ≤ 1 ∧ (s.writesOf id).length ≤ 1 := by
  rw [s.readsOf_eq, s.writesOf_eq]
  cases hc : s.engine.table.find? id with
  | none =>
    rw [h.absent hc]
    exact ⟨Nat.zero_le 1, Nat.zero_le 1⟩
  | some c =>
    obtain ⟨transport, l, -, hs, hsound, -⟩ := h.sound hc
    rw [hs.inFlight]
    exact ⟨hsound.reader.length_le, hsound.writer.length_le⟩

/-- The halves, the operations in flight and the table are in step between two pieces of mail. -/
theorem owned (h : Reached limit mails s) : s.Owned where
  reading id c hc := by
    obtain ⟨transport, l, -, hs, hsound, -⟩ := h.sound hc
    rw [s.readsOf_eq, hs.inFlight]
    exact hsound.reader.iff
  sending id c hc := by
    obtain ⟨transport, l, -, hs, hsound, -⟩ := h.sound hc
    rw [s.writesOf_eq, hs.inFlight]
    exact hsound.writer.iff
  single id := h.single id
  absent id hc o hmem hid := by
    have hflight : o ∈ s.inFlight.filter (·.id = id) :=
      List.mem_filter.mpr ⟨hmem, decide_eq_true hid⟩
    rw [h.absent hc] at hflight
    cases hflight
  known := h.strayless
  erased id c hc := by
    obtain ⟨transport, l, -, hs, hsound, -⟩ := h.sound hc
    refine ⟨fun hclosed => ?_, hsound.not_removable⟩
    obtain ⟨o, hmem⟩ := hsound.exists_mem (hsound.busy hclosed)
    exact ⟨o, hs.mem hmem⟩

/-- A connection that was dropped while it read waits for the end of the read. -/
theorem owned_dropped :
    ∃ s c, Reached 8 [.bring 0, .request (.drop ⟨1⟩)] s ∧ s.Owned ∧
      s.engine.table.find? ⟨1⟩ = some c ∧ c.closed = true ∧ ∃ o ∈ s.inFlight, o.id = ⟨1⟩ := by
  have hreached := reached_bring_request 8 0 (.drop ⟨1⟩)
  have howned := hreached.owned
  have hfound : ((((Course.start 8).after (.bring 0)).after (.request (.drop ⟨1⟩))).engine.table.find?
      ⟨1⟩).map (·.closed) = some true := by
    decide +kernel
  obtain ⟨c, hc, hclosed⟩ := Option.map_eq_some_iff.mp hfound
  exact ⟨_, c, hreached, howned, hc, hclosed, (howned.erased ⟨1⟩ c hc).1 hclosed⟩

end Reached

/-! ## Progress -/

theorem closes_frames (c : Connection) :
    closes c.frames = c.queue.toList.countP (·.frame.opcode == .close) := by
  rw [closes, Connection.frames, List.countP_map]
  rfl

/-- There is a Close frame among those that joined the queue of a connection. -/
theorem closes_pos_iff_mem {id : ConnectionId} {effects : List Effect} :
    0 < closes (joined (effectsOn id effects)) ↔
      ∃ frame, frame.opcode = .close ∧ .queued id frame ∈ effects := by
  rw [closes, List.countP_pos_iff]
  constructor
  · rintro ⟨frame, hmem, hclose⟩
    exact ⟨frame, eq_of_beq hclose, mem_joined_effectsOn.mp hmem⟩
  · rintro ⟨frame, hclose, hmem⟩
    exact ⟨frame, mem_joined_effectsOn.mpr hmem, beq_iff_eq.mpr hclose⟩

/-- An open connection is brought forward by the operations in flight for it. -/
structure Course.Moves (s : Course) (id : ConnectionId) (c : Connection) : Prop where
  writing : s.writesOf id ≠ [] ↔ c.queue.toList ≠ []
  /-- The frame that is being written is at the front of the queue. -/
  front : ∀ writer outgoing, .write id writer outgoing ∈ s.inFlight →
    c.queue.head? = some outgoing
  reading : s.readsOf id ≠ [] ↔ c.closeQueued = false
  /-- The answer to a Close frame has been queued if a Close frame ever joined the queue. -/
  closing : c.closeQueued = true ↔
    ∃ frame, frame.opcode = .close ∧ .queued id frame ∈ s.effects
  /-- The answer is in the queue until it is written. -/
  closes : c.queue.toList.countP (·.frame.opcode == .close) = if c.closeQueued then 1 else 0
  last : c.closeQueued = true → s.writesOf id ≠ []
  busy : ∃ o ∈ s.inFlight, o.id = id

namespace Reached

variable {limit : Nat} {mails : List Mail} {s : Course} {id : ConnectionId} {c : Connection}

/-- No open connection stalls. -/
theorem inFlight_of_open (h : Reached limit mails s) (hc : s.engine.table.find? id = some c)
    (hopen : c.closed = false) : s.Moves id c := by
  obtain ⟨transport, l, -, hs, hsound, hordered⟩ := h.sound hc
  have hledger := hordered.ledger c rfl hopen
  have hfront := hsound.front hopen
  have hwrites : s.writesOf id = writes l.inFlight := by rw [s.writesOf_eq, hs.inFlight]
  have hreads : s.readsOf id = reads l.inFlight := by rw [s.readsOf_eq, hs.inFlight]
  have hreading : s.readsOf id ≠ [] ↔ c.closeQueued = false := by
    rw [hreads, hsound.reader.ne_nil_iff, hsound.reading hopen]
    simp
  have hcloses := hsound.closes hopen
  rw [closes_frames] at hcloses
  have hlast : c.closeQueued = true → s.writesOf id ≠ [] := by
    intro hclose
    rw [hwrites, hfront.ne_nil_iff]
    intro hempty
    rw [hempty, hclose] at hcloses
    cases hcloses
  exact {
    writing := by rw [hwrites, hfront.ne_nil_iff]
    front := by
      intro writer outgoing hmem
      have hwrite : .write id writer outgoing ∈ s.writesOf id :=
        List.mem_filter.mpr ⟨hmem, by simp [Operation.id, Operation.isRead]⟩
      rw [hwrites] at hwrite
      exact hfront.head?_of_mem hwrite
    reading := hreading
    closing := by
      rw [← closes_pos_iff_mem, hledger.closes]
      cases c.closeQueued <;> simp
    closes := by
      rw [hcloses]
      cases c.closeQueued <;> rfl
    last := hlast
    busy := by
      cases hclose : c.closeQueued with
      | true =>
        obtain ⟨o, hmem⟩ := List.exists_mem_of_ne_nil _ (hlast hclose)
        rw [hwrites] at hmem
        exact ⟨o, hs.mem (List.mem_filter.mp hmem).1⟩
      | false =>
        obtain ⟨o, hmem⟩ := List.exists_mem_of_ne_nil _ (hreading.mpr hclose)
        rw [hreads] at hmem
        exact ⟨o, hs.mem (List.mem_filter.mp hmem).1⟩ }

/-- A connection with a message in its queue reads and writes. -/
theorem inFlight_of_open_sending :
    ∃ s c, Reached 8 [.bring 0, .request (.send ⟨1⟩ (.text "a") none)] s ∧
      s.engine.table.find? ⟨1⟩ = some c ∧ s.Moves ⟨1⟩ c ∧ s.writesOf ⟨1⟩ ≠ [] ∧
      s.readsOf ⟨1⟩ ≠ [] := by
  have hreached := reached_bring_request 8 0 (.send ⟨1⟩ (.text "a") none)
  have hfound : ((((Course.start 8).after (.bring 0)).after
      (.request (.send ⟨1⟩ (.text "a") none))).engine.table.find? ⟨1⟩).map
        (fun c => (c.closed, c.queue.isEmpty, c.closeQueued)) = some (false, false, false) := by
    decide +kernel
  obtain ⟨c, hc, hflags⟩ := Option.map_eq_some_iff.mp hfound
  simp only [Prod.mk.injEq] at hflags
  obtain ⟨hopen, hqueue, hclose⟩ := hflags
  have hmoves := hreached.inFlight_of_open hc hopen
  refine ⟨_, c, hreached, hc, hmoves, hmoves.writing.mpr ?_, hmoves.reading.mpr hclose⟩
  intro hempty
  rw [Fifo.isEmpty_iff.mpr hempty] at hqueue
  cases hqueue

end Reached

end WebSocket
