import WebSocket.Proofs.Session.Ownership

/-!
# Successive writes

A connection that has closed takes no frame and begins nothing any more (`Reached.shut_after`).  The
write of a frame begins only when the one before it has gone well: either no write was in flight, or
the mail is the good end of the last one (`Reached.writes_next`).
-/

namespace WebSocket

namespace Connection

variable {c : Connection}

theorem close_of_closed (h : c.closed = true) : c.close = (c, false) := by
  rw [close, if_pos h]

/-- Nothing is told of a closed connection, however often it is dropped. -/
theorem effectsOn_dropped_of_closed (h : c.closed = true) (id : ConnectionId) :
    effectsOn id c.dropped.2 = [] := by
  simp only [dropped, close_of_closed h]
  split
  · cases c.reader <;> rfl
  · rfl

/-- A closed connection stays so, and no errand has effects on it. -/
theorem still_of_closed (h : c.closed = true) (errand : Errand) :
    isOpen (c.attend errand).1 = false ∧ ∀ id, effectsOn id (c.attend errand).2 = [] := by
  have houtcome := c.outcome_attend errand
  generalize c.attend errand = outcome at houtcome
  have hopen (hopen : c.closed = false) : False := absurd (h.symm.trans hopen) (by decide)
  cases houtcome with
  | drops hnotes =>
    refine ⟨isOpen_dropped _, fun id => ?_⟩
    rw [effectsOn_append, hnotes.effectsOn_eq,
      effectsOn_dropped_of_closed ((c.closed_returned errand).trans h)]
    rfl
  | breaks hopen' => exact (hopen hopen').elim
  | reads hopen' => exact (hopen hopen').elim
  | writes hopen' => exact (hopen hopen').elim
  | takes hopen' => exact (hopen hopen').elim
  | ignores =>
    refine ⟨?_, fun id => rfl⟩
    rw [isOpen_some, h]
    rfl

/-- Nothing comes of an errand for a closed connection. -/
theorem attend_of_closed (h : c.closed = true) (errand : Errand) :
    begun (c.attend errand).2 = [] ∧ joined (c.attend errand).2 = [] ∧
      isOpen (c.attend errand).1 = false := by
  obtain ⟨hshut, hnone⟩ := still_of_closed h errand
  refine ⟨begun_eq_nil fun id => ?_, ?_, hshut⟩
  · rw [hnone]
    rfl
  · rw [← (c.confined_attend errand).joined_effectsOn, hnone]
    rfl

/-- A write that fails is the last one. -/
theorem attend_of_failed_write (c : Connection) (writer : Transport) (fault : Fault) :
    begun (c.attend (.write writer (.error fault))).2 = [] ∧
      isOpen (c.attend (.write writer (.error fault))).1 = false := by
  have houtcome := c.outcome_attend (.write writer (.error fault))
  generalize c.attend (.write writer (.error fault)) = outcome at houtcome
  cases houtcome with
  | drops hnotes =>
    rw [begun_append, hnotes.begun_eq, begun_dropped]
    exact ⟨rfl, isOpen_dropped _⟩

end Connection

/-- Whatever is asked of a connection that is not open, it stays so and nothing happens to it. -/
theorem Engine.meet_of_closed {now : Option Connection} (h : isOpen now = false)
    (errand : Option Errand) :
    isOpen (meet now errand).1 = false ∧ ∀ id, effectsOn id (meet now errand).2 = [] := by
  cases now with
  | none => exact ⟨rfl, fun _ => rfl⟩
  | some c =>
    cases errand with
    | none =>
      rw [meet_none]
      exact ⟨h, fun _ => rfl⟩
    | some errand =>
      rw [isOpen_some, Bool.not_eq_false'] at h
      exact Connection.still_of_closed h errand

/-- An end of a write for a connection is mail of just this content. -/
theorem Mail.of_write_errandFor {mail : Mail} {id : ConnectionId} {writer : Transport}
    {result : Except Fault Unit} (h : mail.errandFor? id = some (.write writer result)) :
    mail = .completion (.write id writer result) := by
  rcases mail.kinds with ⟨transport, peer, leftover, rfl⟩ | rfl | ⟨other, errand, hmail⟩
  · cases h
  · cases h
  · rw [mail.errandFor?_of_errand hmail] at h
    split at h
    · rename_i hid
      cases h
      subst hid
      cases mail with
      | completion completion => cases completion <;> cases hmail; rfl
      | request request => cases request <;> cases hmail
    · cases h

/-- The writes that begin for a connection with a piece of mail. -/
def Course.nextWrites (s : Course) (id : ConnectionId) (mail : Mail) : List Operation :=
  writes (begun (effectsOn id (s.engine.dispatch mail).2))

/-- After a piece of mail, the writes in flight are those that are left of them and those that
begin. -/
theorem Course.writesOf_after_eq (s : Course) (id : ConnectionId) (mail : Mail) :
    (s.after mail).writesOf id =
      (s.inFlight.eraseP mail.ends).filter (fun o => decide (o.id = id) && !o.isRead) ++
        s.nextWrites id mail := by
  show (s.inFlight.eraseP mail.ends ++ begun (s.engine.dispatch mail).2).filter _ = _
  rw [List.filter_append, nextWrites, begun_effectsOn, writes, List.filter_filter]
  congr 2
  funext o
  exact Bool.and_comm ..

namespace Reached

variable {limit : Nat} {mails : List Mail} {s : Course} {id : ConnectionId}

/-- What a piece of mail does under a number that it does not give out. -/
theorem agrees_of_same (h : Reached limit mails s) {mail : Mail}
    (hsame : streamOf? (mails ++ [mail]) id = streamOf? mails id) :
    Engine.Agrees id (s.engine.dispatch mail)
      (Engine.meet (s.engine.table.find? id) (mail.errandFor? id)) := by
  rcases h.step mail id with ⟨_, _, _, hnone, hsome, -, -⟩ | ⟨-, hagrees⟩
  · exact absurd ((hsome.symm.trans hsame).trans hnone) nofun
  · exact hagrees

/-- A connection that is not open stays so, and nothing happens to it any more. -/
theorem still_of_closed (h : Reached limit mails s) {mail : Mail}
    (hshut : isOpen (s.engine.table.find? id) = false)
    (hsame : streamOf? (mails ++ [mail]) id = streamOf? mails id) :
    isOpen ((s.after mail).engine.table.find? id) = false ∧
      effectsOn id (s.engine.dispatch mail).2 = [] := by
  have hagrees := h.agrees_of_same hsame
  obtain ⟨hstill, hnone⟩ := Engine.meet_of_closed hshut (mail.errandFor? id)
  exact ⟨(congrArg isOpen hagrees.found).trans hstill, hagrees.felt.trans (hnone id)⟩

/-- A connection that is not open any more stays so, takes no frame and begins nothing. -/
theorem shut_after (h : Reached limit mails s) (mail : Mail) {transport : Transport}
    (hstream : streamOf? mails id = some transport)
    (hshut : isOpen (s.engine.table.find? id) = false) :
    isOpen ((s.after mail).engine.table.find? id) = false ∧
      begun (effectsOn id (s.engine.dispatch mail).2) = [] ∧
      joined (effectsOn id (s.engine.dispatch mail).2) = [] := by
  have hkept := (h.step_of_known mail hstream).1
  obtain ⟨hstill, hnone⟩ := h.still_of_closed hshut (hkept.trans hstream.symm)
  rw [hnone]
  exact ⟨hstill, rfl, rfl⟩

/-- The writes in flight after a piece of mail that is not the end of a write. -/
theorem writesOf_after {mail : Mail}
    (h : ∀ writer result, mail ≠ .completion (.write id writer result)) :
    (s.after mail).writesOf id = s.writesOf id ++ s.nextWrites id mail := by
  have hkeep : (s.inFlight.eraseP mail.ends).filter (fun o => decide (o.id = id) && !o.isRead) =
      s.writesOf id := by
    apply filter_eraseP_of_not
    intro o hends
    by_contra hwrite
    rw [Bool.not_eq_false, Bool.and_eq_true, decide_eq_true_eq] at hwrite
    obtain ⟨rfl, hwrite⟩ := hwrite
    rw [Mail.ends, Option.any_eq_true] at hends
    obtain ⟨errand, herrand, hends⟩ := hends
    cases o with
    | read => cases hwrite
    | write other writer outgoing =>
      cases errand with
      | write writer result => exact h _ _ (Mail.of_write_errandFor herrand)
      | read => cases hends
      | send => cases hends
      | drop => cases hends
  rw [s.writesOf_after_eq, hkeep]

/-- A write that fails ends the session. -/
theorem shut_after_failed_write (h : Reached limit mails s) (id : ConnectionId)
    (writer : Transport) (fault : Fault) :
    let mail := Mail.completion (.write id writer (.error fault))
    isOpen ((s.after mail).engine.table.find? id) = false ∧
      begun (effectsOn id (s.engine.dispatch mail).2) = [] := by
  intro mail
  show isOpen ((s.engine.dispatch mail).1.table.find? id) = false ∧ _
  have herrand : mail.errandFor? id = some (.write writer (.error fault)) := by
    rw [mail.errandFor?_of_errand (rfl : mail.errand? = some (id, _)), if_pos rfl]
  rcases h.step mail id with ⟨_, _, _, -, -, hnone, -⟩ | ⟨-, hagrees⟩
  · exact absurd (herrand.symm.trans hnone) nofun
  · rw [hagrees.found, hagrees.felt, herrand, begun_effectsOn]
    cases s.engine.table.find? id with
    | none => exact ⟨rfl, rfl⟩
    | some c =>
      obtain ⟨hbegun, hshut⟩ := c.attend_of_failed_write writer fault
      show isOpen (c.attend _).1 = false ∧ (begun (c.attend _).2).filter _ = []
      rw [hbegun]
      exact ⟨hshut, rfl⟩

/-- The write of a frame begins only when none is in flight, or with the good end of the one that
was; and an open connection without a write in flight has none behind it that went wrong. -/
theorem writes_next (h : Reached limit mails s) {mail : Mail} (hadmits : s.Admits mail)
    (hnext : s.nextWrites id mail ≠ [] ∨
      isOpen ((s.after mail).engine.table.find? id) = true ∧ (s.after mail).writesOf id = []) :
    streamOf? mails id = none ∨ isOpen (s.engine.table.find? id) = true ∧
      (s.writesOf id = [] ∨ ∃ writer, mail = .completion (.write id writer (.ok ()))) := by
  cases hstream : streamOf? mails id with
  | none => exact .inl rfl
  | some transport =>
    refine .inr ?_
    have hopen : isOpen (s.engine.table.find? id) = true := by
      by_contra hshut
      obtain ⟨hshut', hbegun, -⟩ := h.shut_after mail hstream (Bool.not_eq_true _ ▸ hshut)
      rcases hnext with hbegins | ⟨hopen, -⟩
      · rw [Course.nextWrites, hbegun] at hbegins
        exact hbegins rfl
      · rw [hshut'] at hopen
        cases hopen
    refine ⟨hopen, ?_⟩
    -- Only the end of a write makes room for the next one while the connection writes.
    by_cases hend : ∃ writer result, mail = .completion (.write id writer result)
    · obtain ⟨writer, result, rfl⟩ := hend
      cases result with
      | ok => exact .inr ⟨writer, rfl⟩
      | error fault =>
        obtain ⟨hshut, hbegun⟩ := h.shut_after_failed_write id writer fault
        rcases hnext with hbegins | ⟨hopen', -⟩
        · rw [Course.nextWrites, hbegun] at hbegins
          exact absurd rfl hbegins
        · exact absurd (hshut.symm.trans hopen') (by decide)
    · simp only [not_exists] at hend
      have hafter := writesOf_after (s := s) hend
      refine .inl ?_
      rcases hnext with hbegins | ⟨-, hnone⟩
      · have hsingle := ((Reached.mail h hadmits).single id).2
        have hpos := List.length_pos_iff.mpr hbegins
        rw [hafter, List.length_append] at hsingle
        exact List.length_eq_zero_iff.mp (by omega)
      · rw [hafter] at hnone
        exact (List.append_eq_nil_iff.mp hnone).1

end Reached

end WebSocket
