import WebSocket.Proofs.Hosting.Draining

/-!
# Numbers of connections

The streams that are let in get the numbers from one on, in the order in which they come, and the
application is told of each once.  A number belongs to its stream for ever: when its connection has
left the table nothing stands under it again, and what is still asked of it changes nothing
(`Reached.numbers`).

    openings s.effects = (List.range (admitted mails).length).map fun n => ⟨n + 1⟩
-/

namespace WebSocket

/-- The numbers of the connections that the application is told are there, in order. -/
def openings (effects : List Effect) : List ConnectionId :=
  ((told effects).filter (·.2 = .newConnection)).map (·.1)

theorem openings_append (effects more : List Effect) :
    openings (effects ++ more) = openings effects ++ openings more := by
  rw [openings, told_append, List.filter_append, List.map_append]
  rfl

theorem mem_openings {effects : List Effect} {id : ConnectionId} :
    id ∈ openings effects ↔ .newConnection ∈ delivered (effectsOn id effects) := by
  rw [← filter_told]
  simp [openings]

theorem Confined.openings_eq {id : ConnectionId} {effects : List Effect} (h : Confined id effects) :
    openings effects = List.replicate ((delivered effects).count .newConnection) id := by
  rw [openings, h.told_eq, List.filter_map, List.map_map, List.count, List.countP_eq_length_filter,
    ← List.map_const']
  rfl

namespace Tells

variable {events more : List Event} {now later : Option Connection}

/-- The beginning of a session is told once. -/
theorem count_newConnection (h : Tells events now) : events.count .newConnection = 1 := by
  obtain ⟨messages, rfl⟩ := h
  have hnone : .newConnection ∉ messages.map Event.message := by simp
  rw [List.count_cons_self, List.count_append, List.count_eq_zero_of_not_mem hnone]
  split <;> rfl

theorem newConnection_not_mem (h : Tells events now) (hmore : Tells (events ++ more) later) :
    .newConnection ∉ more := by
  have hone := hmore.count_newConnection
  rw [List.count_append, h.count_newConnection] at hone
  exact List.count_eq_zero.mp (by omega)

end Tells

theorem Connection.openings_opened (c : Connection) (hopen : c.closed = false) :
    openings c.opened.2 = [c.id] := by
  rw [c.confined_opened.openings_eq, (c.tells_opened hopen).count_newConnection]
  rfl

namespace Reached

variable {limit : Nat} {mails later : List Mail} {s last : Course} {mail : Mail}
  {id : ConnectionId}

/-! ## Giving out numbers -/

/-- A stream that comes before all sessions are told to end begins a session under the next
number. -/
theorem opens (h : Reached limit mails s) (hclosed : mails.any (·.isCloseAll) = false)
    (transport : Transport) (peer : Option SocketAddress) (leftover : ReceiveBuffer) :
    let next : ConnectionId := ⟨(admitted mails).length + 1⟩
    let opened := (Connection.new next transport peer leftover limit).opened
    let outcome := s.engine.dispatch (.completion (.registered transport peer leftover))
    outcome.2 = opened.2 ∧ outcome.1.table.find? next = opened.1 := by
  intro next opened outcome
  have hstopping := h.stopping_eq.trans hclosed
  obtain ⟨hfound, hregister⟩ := Engine.register_eq h.numbered hstopping transport peer leftover
  rw [h.lastId_eq, h.limit_eq] at hfound hregister
  have houtcome : outcome = _ := hregister
  rw [houtcome]
  exact ⟨rfl, (Engine.find?_become hfound _ next).trans (if_pos rfl)⟩

/-- No session begins with mail that brings no stream, or after all sessions are told to end. -/
theorem openings_eq_nil (h : Reached limit mails s) (hadmits : s.Admits mail)
    (hnone : mails.any (·.isCloseAll) ∨ mail.stream? = none) :
    openings (s.engine.dispatch mail).2 = [] := by
  rw [List.eq_nil_iff_forall_not_mem]
  intro id hmem
  rw [mem_openings] at hmem
  have hsame := streamOf?_append_of_none hnone id
  have hafter := h.mail hadmits
  have heffects : effectsOn id (s.after mail).effects =
      effectsOn id s.effects ++ effectsOn id (s.engine.dispatch mail).2 :=
    effectsOn_append id _ _
  cases hstream : streamOf? mails id with
  | none =>
    rw [(hafter.nothing_of_unknown (hsame.trans hstream)).2.2] at heffects
    rw [(List.append_eq_nil_iff.mp heffects.symm).2] at hmem
    cases hmem
  | some transport =>
    obtain ⟨_, _, _, hlived, hs⟩ := h.shows_of_known hstream
    obtain ⟨_, _, _, hlived', hs'⟩ := hafter.shows_of_known (hsame.trans hstream)
    have htells := hlived.tells
    have htells' := hlived'.tells
    rw [← hs.delivered_eq hlived.confined] at htells
    rw [← hs'.delivered_eq hlived'.confined, heffects, delivered_append] at htells'
    exact htells.newConnection_not_mem htells' hmem

/-- The sessions that begin with a piece of mail. -/
theorem openings_dispatch (h : Reached limit mails s) (hadmits : s.Admits mail) :
    openings (s.engine.dispatch mail).2 =
      if mails.any (·.isCloseAll) then []
      else mail.stream?.toList.map fun _ => ⟨(admitted mails).length + 1⟩ := by
  cases hclosed : mails.any (·.isCloseAll) with
  | true => exact h.openings_eq_nil hadmits (.inl hclosed)
  | false =>
    by_cases hmail : ∀ transport peer leftover,
        mail ≠ .completion (.registered transport peer leftover)
    · have hnone := mail.stream?_eq_none hmail
      rw [h.openings_eq_nil hadmits (.inr hnone), hnone]
      rfl
    · simp only [ne_eq, Classical.not_forall, Classical.not_not] at hmail
      obtain ⟨transport, peer, leftover, rfl⟩ := hmail
      rw [(h.opens hclosed transport peer leftover).1]
      exact Connection.openings_opened _ rfl

/-- The sessions that have begun have the numbers from one on. -/
theorem openings_eq (h : Reached limit mails s) :
    openings s.effects = (List.range (admitted mails).length).map fun n => ⟨n + 1⟩ := by
  induction h with
  | start => rfl
  | @mail mails s mail h hadmits ih =>
    show openings (s.effects ++ (s.engine.dispatch mail).2) = _
    rw [openings_append, ih, h.openings_dispatch hadmits, admitted_append]
    cases mails.any (·.isCloseAll) with
    | true => simp
    | false => cases mail.stream? <;> simp [List.range_succ]

/-- The numbers that have been given out are those of the streams that were let in. -/
theorem mem_openings_iff (h : Reached limit mails s) :
    id ∈ openings s.effects ↔ ∃ transport, streamOf? mails id = some transport := by
  rw [h.openings_eq, streamOf?]
  obtain ⟨value⟩ := id
  cases value with
  | zero => simp
  | succ n => simp [← Option.isSome_iff_exists]

/-! ## Numbers whose connections are gone -/

/-- When the connection of a number is gone, nothing happens under the number any more. -/
theorem gone_onward (h : Reached limit mails s) {transport : Transport}
    (hstream : streamOf? mails id = some transport) (hgone : s.engine.table.find? id = none)
    (hlater : s.Onward later last) :
    streamOf? (mails ++ later) id = some transport ∧ last.engine.table.find? id = none ∧
      effectsOn id last.effects = effectsOn id s.effects := by
  induction hlater with
  | here => exact ⟨(List.append_nil mails).symm ▸ hstream, hgone, rfl⟩
  | @mail later s' mail hlater hadmits ih =>
    obtain ⟨hstream', hgone', hsame⟩ := ih
    obtain ⟨hkept, hfound, hfelt⟩ := (h.append hlater).step_of_known mail hstream'
    rw [hgone'] at hfound hfelt
    refine ⟨(List.append_assoc ..).symm ▸ hkept, hfound, ?_⟩
    show effectsOn id (s'.effects ++ (s'.engine.dispatch mail).2) = _
    rw [effectsOn_append, hfelt, hsame]
    exact List.append_nil _

/-- What is asked of a number that is not in the table leaves everything as it is. -/
theorem after_of_absent (h : s.engine.table.find? id = none) {errand : Errand}
    (herrand : mail.errand? = some (id, errand)) (hend : errand.isEnd = false) :
    s.after mail = s := by
  refine Course.after_of_nothing (Engine.nothing_of_absent herrand hend h) ?_
  rw [Mail.isEnd, herrand]
  exact hend

end Reached

/-! ## The numbers of a course -/

/-- Numbers are given out once, and one whose connection is gone does no harm. -/
structure Course.Numbers (limit : Nat) (mails : List Mail) (s : Course) : Prop where
  /-- The streams that were let in have the numbers from one on, each told once and in order. -/
  opened : openings s.effects = (List.range (admitted mails).length).map fun n => ⟨n + 1⟩
  /-- Before all sessions are told to end, a stream that comes begins a session under the next
  number. -/
  next : mails.any (·.isCloseAll) = false → ∀ transport peer leftover,
    let id : ConnectionId := ⟨(admitted mails).length + 1⟩
    let opened := (Connection.new id transport peer leftover limit).opened
    let outcome := s.engine.dispatch (.completion (.registered transport peer leftover))
    s.engine.table.find? id = none ∧ outcome.1.table.find? id = opened.1 ∧
      outcome.2 = opened.2 ∧ openings outcome.2 = [id]
  /-- Afterwards it is let go. -/
  refused : mails.any (·.isCloseAll) = true → ∀ transport peer leftover,
    s.engine.dispatch (.completion (.registered transport peer leftover)) =
      (s.engine, [.release transport])
  /-- Every connection stands under its own number, which has been given out. -/
  keys : ∀ id c, (id, c) ∈ s.engine.table.entries →
    c.id = id ∧ 0 < id.value ∧ id.value ≤ (admitted mails).length
  /-- It reads from and writes to the stream that was let in under its number. -/
  streams : ∀ id c, s.engine.table.find? id = some c → ∃ transport,
    streamOf? mails id = some transport ∧ c.HoldsReader transport (s.readsOf id) ∧
      c.HoldsWriter transport (s.writesOf id)
  /-- Once the connection of a number is gone, none ever stands under it again, and nothing
  happens under it. -/
  gone : ∀ id ∈ openings s.effects, s.engine.table.find? id = none →
    ∀ later last, s.Onward later last →
      last.engine.table.find? id = none ∧ effectsOn id last.effects = effectsOn id s.effects
  /-- What is asked of a number under which no connection stands changes nothing. -/
  stale : ∀ id, s.engine.table.find? id = none → ∀ request : Request,
    (∃ message loan, request = .send id message loan) ∨ request = .drop id →
      s.after (.request request) = s ∧
        ∀ host : Host, host.engine = s.engine → host.handle (.request request) = host

namespace Reached

variable {limit : Nat} {mails : List Mail} {s : Course}

/-- Numbers are unique for ever, whatever mail comes and in whatever order. -/
theorem numbers (h : Reached limit mails s) : s.Numbers limit mails where
  opened := h.openings_eq
  next hclosed transport peer leftover := by
    obtain ⟨heffects, hfound⟩ := h.opens hclosed transport peer leftover
    have hfree := h.numbered.find?_next
    rw [h.lastId_eq] at hfree
    refine ⟨hfree, hfound, heffects, ?_⟩
    rw [heffects]
    exact Connection.openings_opened _ rfl
  refused hclosed := Engine.register_of_stopping (h.stopping_eq.trans hclosed)
  keys id c hmem := by
    obtain ⟨hpos, hle⟩ := h.numbered.given id (List.mem_map.mpr ⟨_, hmem, rfl⟩)
    exact ⟨h.numbered.own _ hmem, hpos, h.lastId_eq ▸ hle⟩
  streams id c hc := by
    obtain ⟨transport, l, hstream, hs, hsound, -⟩ := h.sound hc
    rw [s.readsOf_eq, s.writesOf_eq, hs.inFlight]
    exact ⟨transport, hstream, hsound.reader, hsound.writer⟩
  gone id hgiven hgone later last hlater := by
    obtain ⟨transport, hstream⟩ := h.mem_openings_iff.mp hgiven
    exact (h.gone_onward hstream hgone hlater).2
  stale id hnone request hrequest := by
    obtain ⟨errand, herrand, hend⟩ : ∃ errand, (Mail.request request).errand? = some (id, errand) ∧
        errand.isEnd = false := by
      obtain ⟨message, loan, rfl⟩ | rfl := hrequest
      · exact ⟨.send message loan, rfl, rfl⟩
      · exact ⟨.drop, rfl, rfl⟩
    refine ⟨after_of_absent hnone herrand hend, fun host hengine => ?_⟩
    rw [Host.handle, Engine.nothing_of_absent herrand hend (hengine ▸ hnone)]
    rfl

/-- One connection is dropped and leaves with the end of its read, then another comes: it gets the
next number, and the first one stays unused. -/
theorem numbers_dropped :
    ∃ s, Reached 8 [.bring 0, .request (.drop ⟨1⟩),
        .completion (.read ⟨1⟩ 0 .empty (.error .aborted)), .bring 1] s ∧
      openings s.effects = [⟨1⟩, ⟨2⟩] ∧ s.engine.table.ids = [⟨2⟩] ∧
      s.after (.request (.send ⟨1⟩ (.text "late") none)) = s ∧
      ∀ later last, s.Onward later last → last.engine.table.find? ⟨1⟩ = none := by
  have hreached : Reached 8 [.bring 0, .request (.drop ⟨1⟩),
      .completion (.read ⟨1⟩ 0 .empty (.error .aborted)), .bring 1] _ :=
    reached_foldl (by decide +kernel)
  obtain ⟨hopened, -, -, -, -, hgone, hstale⟩ := hreached.numbers
  refine ⟨_, hreached, hopened, by decide +kernel, ?_, ?_⟩
  · exact (hstale ⟨1⟩ (by decide +kernel) _ (.inl ⟨_, _, rfl⟩)).1
  · intro later last hlater
    exact (hgone ⟨1⟩ (by decide +kernel) (by decide +kernel) later last hlater).1

end Reached

end WebSocket
