import WebSocket.Proofs.Session.Soundness

/-!
# What the application is told

Of every connection the application is told that it is there, then of its messages, and then that
its session is over, as soon as it has closed and before anything else happens.  `Tells` is the
shape of what has been told by some point between two errands, and every errand keeps it
(`Tells.attend`).
-/

namespace WebSocket

/-- Events of one session, up to its end or not. -/
def IsSession (events : List Event) : Prop :=
  ∃ messages : List Message, events <+: .newConnection :: (messages.map .message ++ [.disconnect])

/-- What has been told of a connection: of its beginning, of messages, and of its end unless it is
open. -/
def Tells (events : List Event) (now : Option Connection) : Prop :=
  ∃ messages : List Message,
    events = .newConnection :: (messages.map .message ++ if isOpen now then [] else [.disconnect])

namespace Tells

variable {events more : List Event} {now later : Option Connection} {c c' : Connection}

theorem isSession (h : Tells events now) : IsSession events := by
  obtain ⟨messages, rfl⟩ := h
  refine ⟨messages, ?_⟩
  split
  · rw [List.append_nil]
    exact ⟨[.disconnect], by simp⟩
  · exact List.prefix_refl _

/-- The end has been told when the connection is not there or has closed. -/
theorem disconnect_mem_iff (h : Tells events now) :
    .disconnect ∈ events ↔ ∀ c, now = some c → c.closed = true := by
  obtain ⟨messages, rfl⟩ := h
  cases now with
  | none => simp [isOpen]
  | some c => cases hclosed : c.closed <;> simp [isOpen, hclosed]

/-- The end of a session that is over was told once. -/
theorem count_disconnect (h : Tells events none) :
    events.count .disconnect = 1 := by
  obtain ⟨messages, rfl⟩ := h
  have hnone : .disconnect ∉ messages.map Event.message := by simp
  simp [isOpen, List.count_append, List.count_eq_zero_of_not_mem hnone]

/-- More messages may be told as long as the connection is open. -/
theorem messages (h : Tells events now) (hnow : isOpen now = true) (hlater : isOpen later = true)
    (hmore : ∀ event ∈ more, ∃ message, event = .message message) :
    Tells (events ++ more) later := by
  obtain ⟨messages, rfl⟩ := h
  have hnew : ∃ added : List Message, more = added.map .message := by
    induction more with
    | nil => exact ⟨[], rfl⟩
    | cons event more ih =>
      obtain ⟨message, rfl⟩ := hmore event List.mem_cons_self
      obtain ⟨added, rfl⟩ := ih fun event hmem => hmore event (List.mem_cons_of_mem _ hmem)
      exact ⟨message :: added, rfl⟩
  obtain ⟨added, rfl⟩ := hnew
  exact ⟨messages ++ added, by simp [hnow, hlater]⟩

/-- Nothing more is told of a connection that is not open. -/
theorem nothing (h : Tells events now) (hsame : isOpen later = isOpen now) : Tells events later := by
  obtain ⟨messages, rfl⟩ := h
  exact ⟨messages, by rw [hsame]⟩

/-- The end is told when an open connection is dropped. -/
theorem dropped (h : Tells events (some c)) :
    Tells (events ++ delivered c.dropped.2) c.dropped.1 := by
  rw [c.delivered_dropped]
  cases hclosed : c.closed with
  | true =>
    rw [if_pos rfl, List.append_nil]
    exact h.nothing (by rw [c.isOpen_dropped]; simp [isOpen, hclosed])
  | false =>
    obtain ⟨messages, rfl⟩ := h
    refine ⟨messages, ?_⟩
    rw [c.isOpen_dropped]
    simp [isOpen, hclosed]

theorem of_closed_eq (h : Tells events (some c)) (hsame : c'.closed = c.closed) :
    Tells events (some c') :=
  h.nothing (by simp [isOpen, hsame])

/-- A growth tells of messages. -/
theorem grows (h : Tells events (some c)) (hopen : c.closed = false) {effects : List Effect}
    (hg : c.Grows c' effects) : Tells (events ++ delivered effects) (some c') := by
  have hopen' := hg.closed.trans hopen
  exact h.messages (by simp [isOpen, hopen]) (by simp [isOpen, hopen']) hg.messages

/-- An errand keeps to the order of a session. -/
theorem attend (h : Tells events (some c)) (errand : Errand) :
    Tells (events ++ delivered (c.attend errand).2) (c.attend errand).1 := by
  have houtcome := c.outcome_attend errand
  generalize c.attend errand = outcome at houtcome
  cases houtcome with
  | drops hnotes =>
    rw [delivered_append, hnotes.delivered_eq, List.nil_append]
    exact (h.of_closed_eq (c.closed_returned errand)).dropped
  | @breaks reader input _ c' _ hopen hgrows _ =>
    rw [delivered_append, ← List.append_assoc]
    have hreturned : Tells events (some (c.finishRead reader input)) := h.of_closed_eq rfl
    exact (hreturned.grows hopen hgrows).dropped
  | @reads reader input _ c' _ hopen hgrows _ =>
    rw [delivered_append, delivered_startEffect, List.append_nil]
    have hreturned : Tells events (some (c.finishRead reader input)) := h.of_closed_eq rfl
    exact (hreturned.grows hopen hgrows).of_closed_eq c'.closed_beginRead
  | @writes writer hopen _ =>
    have hnone : delivered (.count (.frame .outbound) ::
        startEffect (c.finishWrite writer).1.beginWrite.2) = [] := delivered_startEffect _
    rw [hnone, List.append_nil]
    exact h.of_closed_eq ((Connection.continues_beginWrite _).closed.trans
      (c.continues_finishWrite writer).closed)
  | takes hopen hgrows _ _ => exact h.grows hopen hgrows
  | ignores hclosed =>
    rw [show delivered [] = [] from rfl, List.append_nil]
    exact h

end Tells

/-! ## Lives -/

theorem Connection.tells_opened (c : Connection) (hopen : c.closed = false) :
    Tells (delivered c.opened.2) c.opened.1 := by
  have hbegin : Tells (delivered c.greeting) (some c) := ⟨[], by simp [isOpen, hopen, greeting, delivered]⟩
  show Tells (delivered (c.greeting ++ c.processed.2)) c.processed.1
  rw [delivered_append]
  obtain ⟨c', effects, hgrows, -, hends | hreads⟩ := c.processed_cases
  · rw [hends, delivered_append, ← List.append_assoc]
    exact (hbegin.grows hopen hgrows).dropped
  · rw [hreads, delivered_append, delivered_startEffect, List.append_nil]
    exact (hbegin.grows hopen hgrows).of_closed_eq c'.closed_beginRead

namespace Lived

variable {id : ConnectionId} {transport : Transport} {peer : Option SocketAddress}
  {leftover : ReceiveBuffer} {limit : Nat} {l : Life}

/-- In every life the application is told of a session from its beginning. -/
theorem tells (h : Lived (.new id transport peer leftover limit) l) :
    Tells (delivered l.effects) l.now := by
  induction h with
  | begin => exact Connection.tells_opened _ rfl
  | @errand l errand h hadmits ih =>
    cases hnow : l.now with
    | none =>
      rw [h.after_gone hnow]
      exact ih
    | some c =>
      rw [hnow] at ih
      rw [Life.after_of_now hnow, delivered_append]
      exact ih.attend errand

end Lived

end WebSocket
