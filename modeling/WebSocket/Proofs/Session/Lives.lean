import WebSocket.Proofs.Session.Courses

/-!
# Lives of connections

A life is what a course has been for one connection alone: how the connection is now, if it is still
there, its operations in flight, and the effects on it.  A life begins when its stream is let in and
goes on with the errands that the mail holds for it (`Lived`).

What a course has been for any number is a life, or nothing if no stream was let in under that
number (`Reached.shows`).  So whatever is true of all lives is true of every connection of every
course.
-/

namespace WebSocket

/-- What has happened to one connection. -/
structure Life where
  /-- The connection, unless it has left the table. -/
  now : Option Connection
  inFlight : List Operation
  effects : List Effect

namespace Life

def begin (c : Connection) : Life := ⟨c.opened.1, begun c.opened.2, c.opened.2⟩

/-- Whether an errand may come: the end of an operation only if such an operation is in flight. -/
def Admits (l : Life) (errand : Errand) : Prop :=
  errand.isEnd → ∃ o ∈ l.inFlight, errand.ends o

def after (l : Life) (errand : Errand) : Life :=
  let (now, effects) := Engine.meet l.now (some errand)
  ⟨now, l.inFlight.eraseP errand.ends ++ begun effects, l.effects ++ effects⟩

theorem after_of_now {l : Life} {c : Connection} (h : l.now = some c) (errand : Errand) :
    l.after errand =
      ⟨(c.attend errand).1, l.inFlight.eraseP errand.ends ++ begun (c.attend errand).2,
        l.effects ++ (c.attend errand).2⟩ := by
  simp only [after, h, Engine.meet]

/-- Nothing happens to a connection that is gone. -/
theorem after_of_gone {l : Life} (h : l.now = none) (hnone : l.inFlight = []) (errand : Errand) :
    l.after errand = l := by
  obtain ⟨now, inFlight, effects⟩ := l
  cases h
  cases hnone
  simp [after, Engine.meet, begun]

end Life

/-- The lives that there are of a connection. -/
inductive Lived (c : Connection) : Life → Prop
  | begin : Lived c (.begin c)
  | errand {l : Life} {errand : Errand} :
      Lived c l → l.Admits errand → Lived c (l.after errand)

/-- What may have happened under a number, by the stream that was let in under it. -/
def Life.Under (limit : Nat) (id : ConnectionId) (l : Life) : Option Transport → Prop
  | none => l = ⟨none, [], []⟩
  | some transport => ∃ peer leftover, Lived (.new id transport peer leftover limit) l

/-! ## Ends of operations of one connection -/

theorem Confined.begun_eq {id : ConnectionId} {effects : List Effect} (h : Confined id effects) :
    (begun effects).filter (·.id = id) = begun effects := by
  rw [List.filter_eq_self]
  intro operation hmem
  obtain ⟨effect, heffect, hstart⟩ := List.mem_filterMap.mp hmem
  have hof := h effect heffect
  cases effect with
  | start o =>
    cases hstart
    simpa [Effect.IsOf] using hof
  | _ => cases hstart

theorem filter_eraseP_of_not {α : Type} {p q : α → Bool} {xs : List α}
    (h : ∀ x, p x = true → q x = false) : (xs.eraseP p).filter q = xs.filter q := by
  induction xs with
  | nil => rfl
  | cons x xs ih =>
    by_cases hp : p x
    · simp [List.eraseP_cons_of_pos, hp, h x hp]
    · rw [List.eraseP_cons_of_neg hp, List.filter_cons, List.filter_cons, ih]

/-- What ends an operation of a connection is an errand for it. -/
theorem Mail.ends_of_errandFor {mail : Mail} {id : ConnectionId} {errand : Errand}
    (h : mail.errandFor? id = some errand) (operation : Operation) :
    mail.ends operation = (errand.ends operation && decide (operation.id = id)) := by
  rcases mail.kinds with ⟨transport, peer, leftover, rfl⟩ | rfl | ⟨other, errand', hmail⟩
  · cases h
  · cases h
    cases operation <;> rfl
  · have hfor := h
    rw [mail.errandFor?_of_errand hmail] at hfor
    split at hfor
    · rename_i hid
      cases hfor
      rw [mail.ends_of_errand hmail, hid]
      rfl
    · cases hfor

theorem Mail.not_ends_of_errandFor {mail : Mail} {id : ConnectionId}
    (h : mail.errandFor? id = none) (operation : Operation) (hends : mail.ends operation = true) :
    decide (operation.id = id) = false := by
  apply decide_eq_false
  intro hid
  rw [ends, hid, h] at hends
  cases hends

/-! ## The life in a course -/

/-- For one number, the course has been a certain life. -/
structure Course.Shows (s : Course) (id : ConnectionId) (l : Life) : Prop where
  found : s.engine.table.find? id = l.now
  inFlight : s.inFlight.filter (·.id = id) = l.inFlight
  effects : effectsOn id s.effects = effectsOn id l.effects

namespace Course

variable {s : Course} {id : ConnectionId} {l : Life} {mail : Mail}

theorem Shows.joined_eq (h : s.Shows id l) (hl : Confined id l.effects) :
    joined (effectsOn id s.effects) = joined l.effects := by
  rw [h.effects, hl.joined_effectsOn]

theorem Shows.begun_eq (h : s.Shows id l) (hl : Confined id l.effects) :
    begun (effectsOn id s.effects) = begun l.effects := by
  rw [h.effects, begun_effectsOn, hl.begun_eq]

theorem Shows.delivered_eq (h : s.Shows id l) (hl : Confined id l.effects) :
    delivered (effectsOn id s.effects) = delivered l.effects := by
  rw [h.effects, hl.delivered_effectsOn]

/-- Mail that may come in the course is an errand that may come in the life. -/
theorem Shows.admits (h : s.Shows id l) {errand : Errand} (herrand : mail.errandFor? id = some errand)
    (hadmits : s.Admits mail) : l.Admits errand := by
  intro hend
  rcases mail.kinds with ⟨transport, peer, leftover, rfl⟩ | rfl | ⟨other, errand', hmail⟩
  · cases herrand
  · cases herrand
    cases hend
  · have hfor := herrand
    rw [mail.errandFor?_of_errand hmail] at hfor
    split at hfor
    · rename_i hid
      cases hfor
      obtain ⟨o, hmem, hends⟩ := hadmits other errand hmail hend
      rw [mail.ends_of_errandFor herrand, Bool.and_eq_true] at hends
      exact ⟨o, h.inFlight ▸ List.mem_filter.mpr ⟨hmem, hends.2⟩, hends.1⟩
    · cases hfor

/-- A course that shows a life goes on as the life does, if mail holds an errand for it. -/
theorem Shows.errand (h : s.Shows id l) {errand : Errand} (herrand : mail.errandFor? id = some errand)
    (hconfined : Confined id (Engine.meet l.now (some errand)).2)
    (hagrees : Engine.Agrees id (s.engine.dispatch mail) (Engine.meet l.now (some errand))) :
    (s.after mail).Shows id (l.after errand) where
  found := hagrees.found
  inFlight := by
    show (s.inFlight.eraseP mail.ends ++ begun (s.engine.dispatch mail).2).filter (·.id = id) =
      l.inFlight.eraseP errand.ends ++ begun (Engine.meet l.now (some errand)).2
    rw [List.filter_append, ← h.inFlight, List.eraseP_filter, ← begun_effectsOn, hagrees.felt,
      begun_effectsOn, hconfined.begun_eq, ← funext (mail.ends_of_errandFor herrand)]
  effects := by
    show effectsOn id (s.effects ++ (s.engine.dispatch mail).2) =
      effectsOn id (l.effects ++ (Engine.meet l.now (some errand)).2)
    rw [effectsOn_append, effectsOn_append, h.effects, hagrees.felt]

/-- A course that shows a life shows the same life after mail that holds no errand for it. -/
theorem Shows.other (h : s.Shows id l) (hnone : ∀ o, mail.ends o = true → decide (o.id = id) = false)
    (hagrees : Engine.Agrees id (s.engine.dispatch mail) (l.now, [])) :
    (s.after mail).Shows id l where
  found := hagrees.found
  inFlight := by
    show (s.inFlight.eraseP mail.ends ++ begun (s.engine.dispatch mail).2).filter (·.id = id) = _
    rw [List.filter_append, ← begun_effectsOn, hagrees.felt, filter_eraseP_of_not hnone, h.inFlight]
    exact List.append_nil _
  effects := by
    show effectsOn id (s.effects ++ (s.engine.dispatch mail).2) = _
    rw [effectsOn_append, h.effects, hagrees.felt]
    exact List.append_nil _

/-- A stream that is let in under the number begins a life. -/
theorem Shows.begin (h : s.Shows id ⟨none, [], []⟩) {c : Connection} (hid : c.id = id)
    (hnone : ∀ o, mail.ends o = true → decide (o.id = id) = false)
    (hagrees : Engine.Agrees id (s.engine.dispatch mail) c.opened) :
    (s.after mail).Shows id (.begin c) where
  found := hagrees.found
  inFlight := by
    show (s.inFlight.eraseP mail.ends ++ begun (s.engine.dispatch mail).2).filter (·.id = id) =
      begun c.opened.2
    have hconfined : Confined id c.opened.2 := hid ▸ c.confined_opened
    rw [List.filter_append, filter_eraseP_of_not hnone, h.inFlight, ← begun_effectsOn, hagrees.felt,
      begun_effectsOn, hconfined.begun_eq]
    rfl
  effects := by
    show effectsOn id (s.effects ++ (s.engine.dispatch mail).2) = effectsOn id c.opened.2
    rw [effectsOn_append, h.effects, hagrees.felt]
    rfl

end Course

namespace Reached

variable {limit : Nat} {mails : List Mail} {s : Course} {id : ConnectionId} {l : Life}

theorem confined_meet (h : Reached limit mails s) (hs : s.Shows id l) (errand : Errand) :
    Confined id (Engine.meet l.now (some errand)).2 := by
  rw [← hs.found]
  cases hc : s.engine.table.find? id with
  | none => exact .nil
  | some c =>
    have hid := h.numbered.id_of_find? hc
    subst hid
    exact c.confined_attend errand

/-- What one piece of mail does under one number: it begins a session there, or it is for the
connection that is there, if for any. -/
theorem step (h : Reached limit mails s) (mail : Mail) (id : ConnectionId) :
    (∃ transport peer leftover, streamOf? mails id = none ∧
        streamOf? (mails ++ [mail]) id = some transport ∧ mail.errandFor? id = none ∧
        Engine.Agrees id (s.engine.dispatch mail)
          (Connection.new id transport peer leftover limit).opened) ∨
      streamOf? (mails ++ [mail]) id = streamOf? mails id ∧
        Engine.Agrees id (s.engine.dispatch mail)
          (Engine.meet (s.engine.table.find? id) (mail.errandFor? id)) := by
  by_cases hmail : ∀ transport peer leftover,
      mail ≠ .completion (.registered transport peer leftover)
  · exact .inr ⟨streamOf?_append_of_none (.inr (mail.stream?_eq_none hmail)) id,
      Engine.agrees_dispatch h.numbered hmail id⟩
  · simp only [ne_eq, Classical.not_forall, Classical.not_not] at hmail
    obtain ⟨transport, peer, leftover, rfl⟩ := hmail
    have hstopping := h.stopping_eq
    cases hclosed : mails.any (·.isCloseAll) with
    | true =>
      rw [hclosed] at hstopping
      refine .inr ⟨streamOf?_append_of_none (.inl hclosed) id, ?_⟩
      simp only [Engine.dispatch, Engine.register, hstopping, if_true]
      rw [show Mail.errandFor? id _ = none from rfl, Engine.meet_none]
      exact ⟨rfl, rfl⟩
    | false =>
      rw [hclosed] at hstopping
      have hagrees := Engine.agrees_register h.numbered hstopping transport peer leftover id
      rw [h.lastId_eq, h.limit_eq] at hagrees
      rw [streamOf?_append_of_some hclosed (rfl : Mail.stream? _ = some transport)]
      by_cases hnext : id.value = (admitted mails).length + 1
      · rw [if_pos hnext] at hagrees ⊢
        exact .inl ⟨transport, peer, leftover, streamOf?_eq_none (by omega), rfl, rfl, hagrees⟩
      · rw [if_neg hnext] at hagrees ⊢
        refine .inr ⟨rfl, ?_⟩
        rw [show Mail.errandFor? id _ = none from rfl, Engine.meet_none]
        exact hagrees

/-- A number that has been given out stays with its stream. -/
theorem step_of_known (h : Reached limit mails s) (mail : Mail) {transport : Transport}
    (hstream : streamOf? mails id = some transport) :
    streamOf? (mails ++ [mail]) id = some transport ∧
      Engine.Agrees id (s.engine.dispatch mail)
        (Engine.meet (s.engine.table.find? id) (mail.errandFor? id)) := by
  rcases h.step mail id with ⟨_, _, _, hnone, -, -, -⟩ | ⟨hsame, hagrees⟩
  · exact absurd (hstream.symm.trans hnone) nofun
  · exact ⟨hsame.trans hstream, hagrees⟩

/-- What a course has been for a number is the life of the connection whose stream was let in under
it, or nothing. -/
theorem shows (h : Reached limit mails s) (id : ConnectionId) :
    ∃ l, l.Under limit id (streamOf? mails id) ∧ s.Shows id l := by
  induction h with
  | start =>
    refine ⟨⟨none, [], []⟩, ?_, ⟨rfl, rfl, rfl⟩⟩
    rw [streamOf?]
    split <;> rfl
  | @mail mails s mail h hadmits ih =>
    obtain ⟨l, hl, hs⟩ := ih
    rcases h.step mail id with
      ⟨transport, peer, leftover, hnone, hsome, herrand, hagrees⟩ | ⟨hsame, hagrees⟩
    · rw [hnone] at hl
      subst hl
      rw [hsome]
      exact ⟨_, ⟨peer, leftover, .begin⟩,
        hs.begin rfl (mail.not_ends_of_errandFor herrand) hagrees⟩
    · rw [hsame]
      rw [hs.found] at hagrees
      cases herrand : mail.errandFor? id with
      | none =>
        rw [herrand, Engine.meet_none] at hagrees
        exact ⟨l, hl, hs.other (mail.not_ends_of_errandFor herrand) hagrees⟩
      | some errand =>
        rw [herrand] at hagrees
        refine ⟨l.after errand, ?_, hs.errand herrand (h.confined_meet hs errand) hagrees⟩
        cases hstream : streamOf? mails id with
        | none =>
          rw [hstream] at hl
          subst hl
          rfl
        | some transport =>
          rw [hstream] at hl
          obtain ⟨peer, leftover, hlived⟩ := hl
          exact ⟨peer, leftover, hlived.errand (hs.admits herrand hadmits)⟩

/-- What a course has been for a number that was given out is a life. -/
theorem shows_of_known (h : Reached limit mails s) {transport : Transport}
    (hstream : streamOf? mails id = some transport) :
    ∃ peer leftover l, Lived (.new id transport peer leftover limit) l ∧ s.Shows id l := by
  obtain ⟨l, hl, hs⟩ := h.shows id
  rw [hstream] at hl
  obtain ⟨peer, leftover, hlived⟩ := hl
  exact ⟨peer, leftover, l, hlived, hs⟩

/-- Nothing has happened under a number that was not given out. -/
theorem nothing_of_unknown (h : Reached limit mails s) (hnone : streamOf? mails id = none) :
    s.engine.table.find? id = none ∧ s.inFlight.filter (·.id = id) = [] ∧
      effectsOn id s.effects = [] := by
  obtain ⟨l, hl, hs⟩ := h.shows id
  rw [hnone] at hl
  subst hl
  exact ⟨hs.found, hs.inFlight, hs.effects⟩

end Reached

end WebSocket
