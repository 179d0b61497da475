import WebSocket.Proofs.Session.Soundness

/-!
# The order of frames

The frames that join the queue of a connection are written in the order in which they join, each
once.  While the connection is open, those that joined are those whose write has begun and after
them the ones that stand behind the first in the queue (`Connection.Ledger`).  After that no write
begins, so the frames whose write has begun are always the first of those that joined, and a Close
frame is the last of them (`Lived.ordered`).
-/

namespace WebSocket

def Operation.frame? : Operation → Option ServerFrame
  | read .. => none
  | write _ _ outgoing => some outgoing.frame

def framesOf (operations : List Operation) : List ServerFrame := operations.filterMap (·.frame?)

@[simp] theorem framesOf_append (operations more : List Operation) :
    framesOf (operations ++ more) = framesOf operations ++ framesOf more :=
  List.filterMap_append ..

theorem framesOf_writes (operations : List Operation) :
    framesOf (writes operations) = framesOf operations := by
  rw [framesOf, framesOf, writes, List.filterMap_filter]
  congr 1
  funext o
  cases o <;> rfl

theorem take_one_append_tail {α : Type} (xs : List α) : xs.take 1 ++ xs.tail = xs := by
  cases xs <;> rfl

namespace Connection

variable {c c' : Connection} {transport : Transport} {operations : List Operation}
  {effects more : List Effect}

theorem WritesFront.framesOf_eq (h : c.WritesFront transport operations) :
    framesOf operations = c.frames.take 1 := by
  cases h with
  | idle hqueue => simp [frames, hqueue, framesOf]
  | busy hqueue => simp [frames, hqueue, framesOf, Operation.frame?]

/-- How the frames that joined the queue of an open connection stand to those whose write has
begun. -/
structure Ledger (c : Connection) (effects : List Effect) : Prop where
  order : joined effects = framesOf (begun effects) ++ c.frames.tail
  closes : WebSocket.closes (joined effects) = c.closeQueued.toNat
  /-- The frame in front is the last whose write has begun, and no Close frame came before it. -/
  front : ∃ earlier, framesOf (begun effects) = earlier ++ c.frames.take 1 ∧
    WebSocket.closes earlier = 0

/-- Writes begin in the order in which the frames joined the queue, and none begins after that of a
Close frame. -/
structure Begins (effects : List Effect) : Prop where
  begins : framesOf (begun effects) <+: joined effects
  last : WebSocket.closes (framesOf (begun effects)).dropLast = 0

/-- No frame behind a Close frame is begun. -/
theorem Begins.within (h : Begins effects) {earlier later : List ServerFrame} {close : ServerFrame}
    (hjoined : joined effects = earlier ++ close :: later) (hclose : close.opcode = .close) :
    framesOf (begun effects) <+: earlier ++ [close] := by
  have hupto : earlier ++ [close] <+: joined effects := by
    rw [hjoined]
    exact ⟨later, List.append_assoc ..⟩
  rcases List.prefix_or_prefix_of_prefix h.begins hupto with hwithin | ⟨more, hmore⟩
  · exact hwithin
  · rcases List.eq_nil_or_concat more with rfl | ⟨front, last, rfl⟩
    · exact ⟨[], by rw [List.append_nil, ← hmore, List.append_nil]⟩
    · -- The Close frame would not be the last one.
      have hlast := h.last
      rw [← hmore, List.concat_eq_append, ← List.append_assoc, List.dropLast_concat,
        WebSocket.closes, List.countP_eq_zero] at hlast
      exact absurd (by simp [hclose]) (hlast close (by simp))

theorem Ledger.begins (h : c.Ledger effects) : Begins effects where
  begins := ⟨c.frames.tail, h.order.symm⟩
  last := by
    obtain ⟨earlier, hbegun, hnone⟩ := h.front
    rw [hbegun]
    cases c.frames with
    | nil =>
      rw [List.take_nil, List.append_nil]
      exact Nat.le_zero.mp (hnone ▸ (List.dropLast_sublist earlier).countP_le)
    | cons frame later =>
      rw [List.take_succ_cons, List.take_zero, List.dropLast_concat]
      exact hnone

/-- The front of a queue that has grown is what it was, or the frame whose write has begun. -/
theorem Grows.take_one (h : c.Grows c' more) (hfront : c.WritesFront transport operations) :
    c'.frames.take 1 = c.frames.take 1 ++ framesOf (begun more) := by
  rw [← hfront.framesOf_eq, ← framesOf_append]
  exact (h.front hfront).framesOf_eq.symm

/-- A frame that joins an empty queue is the first whose write begins, and all others join behind
the first. -/
theorem Grows.order (h : c.Grows c' more) (hfront : c.WritesFront transport operations) :
    c.frames.tail ++ joined more = framesOf (begun more) ++ c'.frames.tail := by
  -- What is being written is the front of the queue, before and after.
  have hfirst := h.take_one hfront
  rw [h.frames] at hfirst
  rw [h.frames]
  cases hframes : c.frames with
  | nil =>
    rw [hframes] at hfirst
    simp only [List.take_nil, List.nil_append] at hfirst
    rw [← hfirst, List.tail_nil, List.nil_append]
    exact (take_one_append_tail (joined more)).symm
  | cons frame later =>
    rw [hframes] at hfirst
    simp only [List.take_succ_cons, List.take_zero, List.cons_append, List.nil_append,
      List.cons.injEq, true_and] at hfirst
    rw [← hfirst]
    rfl

theorem Ledger.grows (h : c.Ledger effects) (hg : c.Grows c' more)
    (hfront : c.WritesFront transport operations) : c'.Ledger (effects ++ more) where
  order := by
    rw [joined_append, h.order, begun_append, framesOf_append, List.append_assoc,
      hg.order hfront, List.append_assoc]
  closes := by rw [joined_append, closes_append, h.closes, hg.closes]
  front := by
    obtain ⟨earlier, hbegun, hnone⟩ := h.front
    refine ⟨earlier, ?_, hnone⟩
    rw [begun_append, framesOf_append, hbegun, hg.take_one hfront, List.append_assoc]

theorem Ledger.finishRead (h : c.Ledger effects) (reader : Transport) (input : ReceiveBuffer) :
    (c.finishRead reader input).Ledger effects :=
  ⟨h.order, h.closes, h.front⟩

theorem Ledger.beginRead (h : c.Ledger effects) :
    c.beginRead.1.Ledger (effects ++ startEffect c.beginRead.2) := by
  have hread : framesOf (begun (startEffect c.beginRead.2)) = [] := by
    rw [begun_startEffect]
    unfold Connection.beginRead
    split
    · rfl
    · split <;> rfl
  have hsame : c.beginRead.1.frames = c.frames ∧ c.beginRead.1.closeQueued = c.closeQueued := by
    unfold Connection.beginRead
    split
    · exact ⟨rfl, rfl⟩
    · split <;> exact ⟨rfl, rfl⟩
  refine ⟨?_, ?_, ?_⟩
  · rw [joined_append, joined_startEffect, begun_append, framesOf_append, hread, hsame.1,
      List.append_nil, List.append_nil, h.order]
  · rw [joined_append, joined_startEffect, List.append_nil, hsame.2, h.closes]
  · rw [begun_append, framesOf_append, hread, hsame.1, List.append_nil]
    exact h.front

/-- The next frame is the one behind the first. -/
theorem Ledger.next (h : c.Ledger effects) (hopen : c.closed = false) {writer : Transport}
    (hother : ∀ frame ∈ (c.finishWrite writer).2, frame.opcode ≠ .close) :
    (c.finishWrite writer).1.beginWrite.1.Ledger
      (effects ++ .count (.frame .outbound) ::
        startEffect (c.finishWrite writer).1.beginWrite.2) := by
  have hcontinues := c.continues_finishWrite writer
  have hfront := writesFront_beginWrite (hcontinues.closed.trans hopen)
    (c.sending_finishWrite writer) (c.writer_finishWrite writer)
  have hbegun := hfront.framesOf_eq
  have hframes : (c.finishWrite writer).1.beginWrite.1.frames = c.frames.tail := by
    rw [frames, queue_beginWrite]
    exact (frames_finishWrite hopen writer).2
  have hjoined : joined (.count (.frame .outbound) ::
      startEffect (c.finishWrite writer).1.beginWrite.2) = [] := joined_startEffect _
  have hstart : begun (.count (.frame .outbound) ::
      startEffect (c.finishWrite writer).1.beginWrite.2) =
        (c.finishWrite writer).1.beginWrite.2.toList := begun_startEffect _
  refine ⟨?_, ?_, ?_⟩
  · rw [joined_append, hjoined, List.append_nil, begun_append, hstart, framesOf_append, hbegun,
      hframes, h.order, List.append_assoc, take_one_append_tail]
  · rw [joined_append, hjoined, List.append_nil, closeQueued_beginWrite, closeQueued_finishWrite,
      h.closes]
  · obtain ⟨earlier, hearlier, hnone⟩ := h.front
    have hwritten : WebSocket.closes (c.frames.take 1) = 0 := by
      rw [List.take_one, ← (frames_finishWrite hopen writer).1, WebSocket.closes,
        List.countP_eq_zero]
      intro frame hmem
      simpa using hother frame (Option.mem_toList.mp hmem)
    refine ⟨earlier ++ c.frames.take 1, ?_, ?_⟩
    · rw [begun_append, hstart, framesOf_append, hearlier, hbegun]
    · rw [closes_append, hnone, hwritten]

/-! ## Errands -/

/-- The frames whose write has begun are the first of those that joined the queue. -/
structure Ordered (effects : List Effect) (now : Option Connection) : Prop extends
    Begins effects where
  ledger : ∀ c, now = some c → c.closed = false → c.Ledger effects

theorem Ledger.ordered (h : c.Ledger effects) : Ordered effects (some c) where
  toBegins := h.begins
  ledger c' hc' _ := by
    cases hc'
    exact h

/-- The order goes by the frames that joined and the operations that began. -/
theorem Ordered.of_same {now : Option Connection} (h : Ordered effects now)
    (hjoined : joined more = joined effects) (hbegun : begun more = begun effects) :
    Ordered more now where
  begins := by
    rw [hjoined, hbegun]
    exact h.begins
  last := by
    rw [hbegun]
    exact h.last
  ledger c hc hopen := by
    obtain ⟨horder, hcloses, hfront⟩ := h.ledger c hc hopen
    rw [← hjoined] at horder hcloses
    rw [← hbegun] at horder hfront
    exact ⟨horder, hcloses, hfront⟩

/-- A drop leaves the order as it is. -/
theorem ordered_dropped (h : Begins effects) (c : Connection) :
    Ordered (effects ++ c.dropped.2) c.dropped.1 where
  begins := by
    rw [begun_append, begun_dropped, joined_append, joined_dropped, List.append_nil,
      List.append_nil]
    exact h.begins
  last := by
    rw [begun_append, begun_dropped, List.append_nil]
    exact h.last
  ledger c' hc' hopen := by
    have hshut := c.isOpen_dropped
    rw [hc', isOpen_some, hopen] at hshut
    cases hshut

theorem Begins.notes (h : Begins effects) {notes : List Effect} (hnotes : Notes notes) :
    Begins (effects ++ notes) := by
  constructor
  · rw [begun_append, hnotes.begun_eq, joined_append, hnotes.joined_eq, List.append_nil,
      List.append_nil]
    exact h.begins
  · rw [begun_append, hnotes.begun_eq, List.append_nil]
    exact h.last

/-- An errand keeps the order. -/
theorem Ordered.attend (h : Ordered effects (some c)) (hs : c.Sound transport operations)
    (errand : Errand) : Ordered (effects ++ (c.attend errand).2) (c.attend errand).1 := by
  have houtcome := c.outcome_attend errand
  generalize c.attend errand = outcome at houtcome
  cases houtcome with
  | drops hnotes =>
    rw [← List.append_assoc]
    exact ordered_dropped (h.toBegins.notes hnotes) _
  | @breaks reader input _ c' _ hopen hgrows _ =>
    rw [← List.append_assoc]
    have hledger := (h.ledger c rfl hopen).finishRead reader input
    exact ordered_dropped (hledger.grows hgrows ((hs.front hopen).of_same rfl rfl rfl rfl)).begins c'
  | @reads reader input _ c' _ hopen hgrows _ =>
    rw [← List.append_assoc]
    have hledger := (h.ledger c rfl hopen).finishRead reader input
    exact (hledger.grows hgrows ((hs.front hopen).of_same rfl rfl rfl rfl)).beginRead.ordered
  | writes hopen hother => exact ((h.ledger c rfl hopen).next hopen hother).ordered
  | takes hopen hgrows _ _ => exact ((h.ledger c rfl hopen).grows hgrows (hs.front hopen)).ordered
  | ignores hclosed =>
    rw [List.append_nil]
    exact h

end Connection

/-! ## Lives -/

theorem Connection.ordered_opened (id : ConnectionId) (transport : Transport)
    (peer : Option SocketAddress) (leftover : ReceiveBuffer) (limit : Nat) :
    let c := Connection.new id transport peer leftover limit
    Ordered c.opened.2 c.opened.1 := by
  intro c
  have hqueue : c.queue.toList = [] := Fifo.toList_empty
  have hfront : c.WritesFront transport [] := .idle hqueue rfl rfl
  have hledger : c.Ledger c.greeting := by
    have hframes : c.frames = [] := by
      rw [frames, hqueue]
      rfl
    refine ⟨?_, rfl, [], ?_, rfl⟩
    · rw [hframes]
      rfl
    · rw [hframes]
      rfl
  show Ordered (c.greeting ++ c.processed.2) c.processed.1
  obtain ⟨c', effects, hgrows, -, hends | hreads⟩ := c.processed_cases
  · rw [hends, ← List.append_assoc]
    exact ordered_dropped (hledger.grows hgrows hfront).begins c'
  · rw [hreads, ← List.append_assoc]
    exact (hledger.grows hgrows hfront).beginRead.ordered

namespace Lived

variable {id : ConnectionId} {transport : Transport} {peer : Option SocketAddress}
  {leftover : ReceiveBuffer} {limit : Nat} {l : Life}

/-- In every life the frames are written in the order in which they joined the queue. -/
theorem ordered (h : Lived (.new id transport peer leftover limit) l) :
    Connection.Ordered l.effects l.now := by
  induction h with
  | begin => exact Connection.ordered_opened id transport peer leftover limit
  | @errand l errand h hadmits ih =>
    cases hnow : l.now with
    | none =>
      rw [h.after_gone hnow]
      exact ih
    | some c =>
      have hsettled := h.settled
      rw [hnow] at hsettled
      rw [hnow] at ih
      rw [Life.after_of_now hnow]
      exact ih.attend hsettled errand

end Lived

end WebSocket
