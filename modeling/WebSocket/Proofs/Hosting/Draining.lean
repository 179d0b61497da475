import WebSocket.Hosting.Turn
import WebSocket.Proofs.Hosting.Performance
import WebSocket.Proofs.Session.Attention
import WebSocket.Proofs.Session.Grammar

/-!
# Draining

When all sessions are told to end, every open connection is dropped, in the order in which they
opened, and the engine is shut: no stream is let in, nothing is told any more and nothing begins
(`Reached.still_after`).  What remains are the operations in flight.  Their ends come one by one, and
with the last of them the engine is done (`Reached.drains`).
-/

namespace WebSocket

/-! ## A closed connection -/

/-- A closed connection that waits for the end of an operation stays as it is, whatever else is
asked of it. -/
theorem Connection.attend_of_waiting {c : Connection} (hclosed : c.closed = true)
    (hstays : c.isRemovable = false) {errand : Errand} (hend : errand.isEnd = false) :
    c.attend errand = (some c, []) := by
  cases errand with
  | read | write => cases hend
  | send message loan => simp only [attend, answer_of_closed hclosed]
  | drop =>
    simp only [attend, dropped, close_of_closed hclosed, hstays]
    rfl

/-! ## Closing every connection -/

namespace Engine

variable {e : Engine} {id : ConnectionId} {c : Connection}

def openIds (e : Engine) : List ConnectionId :=
  e.table.ids.filter fun id => isOpen (e.table.find? id)

/-- Sessions are to end, and no connection is open. -/
structure Shut (e : Engine) : Prop where
  stopping : e.stopping = true
  closed : ∀ id, isOpen (e.table.find? id) = false

/-- A stream that comes when sessions are to end is let go, and nothing else happens. -/
theorem register_of_stopping (h : e.stopping = true) (transport : Transport)
    (peer : Option SocketAddress) (leftover : ReceiveBuffer) :
    e.register transport peer leftover = (e, [.release transport]) := by
  rw [register, if_pos h]

theorem told_drop (h : e.table.Numbered) (id : ConnectionId) :
    told (e.drop id).2 = if isOpen (e.table.find? id) then [(id, .disconnect)] else [] := by
  cases hc : e.table.find? id with
  | none =>
    have hdrop : e.drop id = (e, []) := by simp only [drop, hc]
    rw [hdrop]
    rfl
  | some c =>
    have hid := h.id_of_find? hc
    subst hid
    rw [drop_eq hc rfl, c.confined_dropped.told_eq, c.delivered_dropped, isOpen_some]
    cases c.closed <;> rfl

/-- The application is told of the end of every open connection, in the order of the list. -/
theorem told_dropAll (h : e.table.Numbered) {ids : List ConnectionId} (hids : ids.Nodup) :
    told (e.dropAll ids).2 =
      (ids.filter fun id => isOpen (e.table.find? id)).map fun id => (id, .disconnect) := by
  induction ids generalizing e with
  | nil => rfl
  | cons id ids ih =>
    obtain ⟨hfresh, hids⟩ := List.nodup_cons.mp hids
    -- Dropping one connection leaves the others as they are.
    have hothers : (ids.filter fun other => isOpen ((e.drop id).1.table.find? other)) =
        ids.filter fun other => isOpen (e.table.find? other) := by
      refine List.filter_congr fun other hmem => ?_
      have hne : other ≠ id := fun heq => hfresh (heq ▸ hmem)
      have hfound := (agrees_drop h id other).found
      rw [if_neg hne] at hfound
      rw [hfound]
    simp only [dropAll]
    rw [told_append, told_drop h, ih (numbered_drop h id) hids, hothers, List.filter_cons]
    split <;> rfl

theorem told_closeAll (h : e.table.Numbered) :
    told (e.dispatch (.request .closeAll)).2 = e.openIds.map fun id => (id, .disconnect) :=
  told_dropAll (e := { e with stopping := true }) h h.nodup_ids

/-- Nothing comes of dropping connections if nothing comes of dropping any one of them. -/
theorem dropAll_of_drop (h : ∀ id, e.drop id = (e, [])) (ids : List ConnectionId) :
    e.dropAll ids = (e, []) := by
  induction ids with
  | nil => rfl
  | cons id ids ih => simp only [dropAll, h id, ih, List.append_nil]

end Engine

/-! ## Mail that ends an operation -/

/-- Whether the mail is the end of an operation. -/
def Mail.isEnd (mail : Mail) : Bool := mail.errand?.any (·.2.isEnd)

theorem Errand.isEnd_of_ends {errand : Errand} {o : Operation} (h : errand.ends o = true) :
    errand.isEnd = true := by
  cases errand <;> first | rfl | cases h

theorem Mail.isEnd_of_ends {mail : Mail} {o : Operation} (h : mail.ends o = true) :
    mail.isEnd = true := by
  rcases mail.kinds with ⟨transport, peer, leftover, rfl⟩ | rfl | ⟨id, errand, herrand⟩
  · cases h
  · cases o <;> cases h
  · rw [mail.ends_of_errand herrand, Bool.and_eq_true] at h
    rw [isEnd, herrand]
    exact Errand.isEnd_of_ends h.1

theorem Mail.eraseP_of_not_end {mail : Mail} (h : mail.isEnd = false) {operations : List Operation} :
    operations.eraseP mail.ends = operations := by
  apply List.eraseP_of_forall_not
  intro o _ hends
  rw [isEnd_of_ends hends] at h
  cases h

/-- Mail of which nothing comes leaves everything as it is, unless it ends an operation. -/
theorem Course.after_of_nothing {s : Course} {mail : Mail}
    (h : s.engine.dispatch mail = (s.engine, [])) (hend : mail.isEnd = false) :
    s.after mail = s := by
  rw [after, h, Mail.eraseP_of_not_end hend]
  simp [begun]

/-! ## The loop of the engine -/

/-- The loop ends as soon as the engine is done, and not before. -/
theorem Host.retires_iff (host : Host) (hrunning : host.running = true) :
    (∀ allowance, host.engineTurn allowance = (host.retire, .waiting)) ↔
      host.engine.isDone = true := by
  constructor
  · intro hall
    have hnone := hall 0
    unfold engineTurn at hnone
    rw [hrunning, if_neg (by decide)] at hnone
    split at hnone
    · assumption
    · cases congrArg (·.2) hnone
  · intro hdone allowance
    unfold engineTurn
    rw [hrunning, hdone, if_neg (by decide), if_pos rfl]

/-! ## What happens to an engine that is shut -/

namespace Engine

variable {e : Engine} {mail : Mail}

/-- What mail does to one connection of an engine that is shut. -/
theorem still_on (h : e.table.Numbered) (hshut : e.Shut)
    (hmail : ∀ transport peer leftover, mail ≠ .completion (.registered transport peer leftover))
    (id : ConnectionId) :
    isOpen ((e.dispatch mail).1.table.find? id) = false ∧
      delivered (effectsOn id (e.dispatch mail).2) = [] ∧
      begun (effectsOn id (e.dispatch mail).2) = [] := by
  have hagrees := agrees_dispatch h hmail id
  obtain ⟨hstill, hnone⟩ := meet_of_closed (hshut.closed id) (mail.errandFor? id)
  rw [hagrees.found, hagrees.felt, hnone]
  exact ⟨hstill, rfl, rfl⟩

/-- Whatever comes, an engine that is shut stays so, has nothing to tell and begins nothing. -/
theorem still_dispatch (h : e.table.Numbered) (hshut : e.Shut) (mail : Mail) :
    (e.dispatch mail).1.Shut ∧ told (e.dispatch mail).2 = [] ∧ begun (e.dispatch mail).2 = [] := by
  by_cases hmail : ∀ transport peer leftover,
      mail ≠ .completion (.registered transport peer leftover)
  · have hstopping : (e.dispatch mail).1.stopping = true := by
      rw [stopping_dispatch h, hshut.stopping]
      rfl
    have hstill := still_on h hshut hmail
    exact ⟨⟨hstopping, fun id => (hstill id).1⟩, told_eq_nil fun id => (hstill id).2.1,
      begun_eq_nil fun id => (hstill id).2.2⟩
  · simp only [ne_eq, Classical.not_forall, Classical.not_not] at hmail
    obtain ⟨transport, peer, leftover, rfl⟩ := hmail
    have hrefused := register_of_stopping hshut.stopping transport peer leftover
    simp only [dispatch, hrefused]
    exact ⟨hshut, rfl, rfl⟩

theorem still_run (h : e.table.Numbered) (hshut : e.Shut) (mails : List Mail) :
    (e.run mails).1.Shut ∧ told (e.run mails).2 = [] := by
  induction mails generalizing e with
  | nil => exact ⟨hshut, rfl⟩
  | cons mail mails ih =>
    obtain ⟨hshut', htold, -⟩ := still_dispatch h hshut mail
    obtain ⟨hshut'', htold'⟩ := ih (numbered_dispatch h mail) hshut'
    refine ⟨hshut'', ?_⟩
    show told ((e.dispatch mail).2 ++ ((e.dispatch mail).1.run mails).2) = []
    rw [told_append, htold, htold']
    rfl

end Engine

namespace Reached

variable {limit : Nat} {mails : List Mail} {s : Course} {mail : Mail}

/-- All sessions have been told to end. -/
theorem shut_closeAll (h : Reached limit mails s) :
    (s.after (.request .closeAll)).engine.Shut where
  stopping := by
    show (s.engine.dispatch (.request .closeAll)).1.stopping = true
    rw [Engine.stopping_dispatch h.numbered]
    exact Bool.or_true _
  closed id := by
    show isOpen (s.engine.closeAll.1.table.find? id) = false
    rw [(Engine.agrees_closeAll h.numbered id).found]
    cases s.engine.table.find? id with
    | none => rfl
    | some c => exact c.isOpen_dropped

theorem begun_closeAll (h : Reached limit mails s) :
    begun (s.engine.dispatch (.request .closeAll)).2 = [] := by
  refine begun_eq_nil fun id => ?_
  show begun (effectsOn id s.engine.closeAll.2) = []
  rw [(Engine.agrees_closeAll h.numbered id).felt, begun_effectsOn]
  cases s.engine.table.find? id with
  | none => rfl
  | some c =>
    show (begun c.dropped.2).filter _ = []
    rw [c.begun_dropped]
    rfl

theorem still_after (h : Reached limit mails s) (hshut : s.engine.Shut) (mail : Mail) :
    (s.after mail).engine.Shut ∧ told (s.engine.dispatch mail).2 = [] ∧
      begun (s.engine.dispatch mail).2 = [] :=
  Engine.still_dispatch h.numbered hshut mail

/-- An engine that has been told to end all sessions is shut. -/
theorem shut_of_stopping (h : Reached limit mails s) (hstopping : s.engine.stopping = true) :
    s.engine.Shut := by
  induction h with
  | start => cases hstopping
  | @mail mails s mail h hadmits ih =>
    cases hbefore : s.engine.stopping with
    | true => exact (h.still_after (ih hbefore) mail).1
    | false =>
      have hclose : mail.isCloseAll = true := by
        rwa [show (s.after mail).engine.stopping = _ from
          Engine.stopping_dispatch h.numbered mail, hbefore, Bool.false_or] at hstopping
      obtain rfl : mail = .request .closeAll := by
        rcases mail.kinds with ⟨transport, peer, leftover, rfl⟩ | rfl | ⟨id, errand, herrand⟩
        · cases hclose
        · rfl
        · rw [mail.isCloseAll_of_errand herrand] at hclose
          cases hclose
      exact h.shut_closeAll

/-- Nothing comes of what is asked of a connection that is closed or not there. -/
theorem dispatch_of_closed (h : Reached limit mails s) {id : ConnectionId}
    (hshut : isOpen (s.engine.table.find? id) = false) {errand : Errand}
    (herrand : mail.errand? = some (id, errand)) (hend : errand.isEnd = false) :
    s.engine.dispatch mail = (s.engine, []) := by
  cases hc : s.engine.table.find? id with
  | none => exact Engine.nothing_of_absent herrand hend hc
  | some c =>
    obtain ⟨transport, l, -, -, hsound, -⟩ := h.sound hc
    rw [hc, isOpen_some, Bool.not_eq_false'] at hshut
    rw [Engine.dispatch_of_errand herrand hc (h.numbered.id_of_find? hc),
      Connection.attend_of_waiting hshut hsound.not_removable hend]
    show (s.engine.put id c, _) = _
    rw [Engine.put, h.numbered.set_of_find? hc]

/-- Dropping any connection of an engine that is shut does nothing. -/
theorem drop_of_shut (h : Reached limit mails s) (hshut : s.engine.Shut) (id : ConnectionId) :
    s.engine.drop id = (s.engine, []) := by
  show s.engine.dispatch (.request (.drop id)) = _
  exact h.dispatch_of_closed (hshut.closed id) rfl rfl

/-- When an engine that is shut is told to close every connection, it reports so and that is all. -/
theorem closeAll_of_shut (h : Reached limit mails s) (hshut : s.engine.Shut) :
    s.engine.dispatch (.request .closeAll) =
      (s.engine, [.report (.closingAll s.engine.table.size)]) := by
  have hsame : { s.engine with stopping := true } = s.engine := by
    rw [← hshut.stopping]
  have hnothing := Engine.dropAll_of_drop (h.drop_of_shut hshut) s.engine.table.ids
  simp only [Engine.dispatch, Engine.closeAll, hsame, hnothing]

/-- Whatever is asked of an engine that is shut, it stays as it is. -/
theorem engine_of_request (h : Reached limit mails s) (hshut : s.engine.Shut) (request : Request) :
    (s.after (.request request)).engine = s.engine := by
  cases request with
  | send id message loan =>
    have hsend : s.engine.dispatch (.request (.send id message loan)) = (s.engine, []) :=
      h.dispatch_of_closed (hshut.closed id) rfl rfl
    exact congrArg (·.1) hsend
  | drop id => exact congrArg (·.1) (h.drop_of_shut hshut id)
  | closeAll => exact congrArg (·.1) (h.closeAll_of_shut hshut)

/-! ## The operations in flight -/

theorem inFlight_of_begun (h : begun (s.engine.dispatch mail).2 = []) :
    (s.after mail).inFlight = s.inFlight.eraseP mail.ends := by
  show s.inFlight.eraseP mail.ends ++ begun (s.engine.dispatch mail).2 = _
  rw [h, List.append_nil]

/-- An operation is in flight until its end is handled. -/
theorem length_erased (hadmits : s.Admits mail) :
    (s.inFlight.eraseP mail.ends).length + (if mail.isEnd then 1 else 0) = s.inFlight.length := by
  cases hend : mail.isEnd with
  | false =>
    rw [Mail.eraseP_of_not_end hend]
    rfl
  | true =>
    obtain ⟨⟨id, errand⟩, herrand, hends⟩ := Option.any_eq_true .. |>.mp hend
    obtain ⟨o, hmem, ho⟩ := hadmits id errand herrand hends
    have hpos := List.length_pos_of_mem hmem
    rw [List.length_eraseP_of_mem hmem ho, if_pos rfl]
    omega

/-- A closed connection is there as long as operations of it are in flight. -/
theorem gone_iff (h : Reached limit mails s) {id : ConnectionId}
    (hshut : isOpen (s.engine.table.find? id) = false) :
    s.engine.table.find? id = none ↔ s.operationsOf id = [] := by
  refine ⟨h.absent, fun hnone => ?_⟩
  cases hc : s.engine.table.find? id with
  | none => rfl
  | some c =>
    obtain ⟨transport, l, -, hs, hsound, -⟩ := h.sound hc
    rw [hc, isOpen_some, Bool.not_eq_false'] at hshut
    obtain ⟨o, hmem⟩ := hsound.exists_mem (hsound.busy hshut)
    rw [← hs.inFlight] at hmem
    rw [Course.operationsOf] at hnone
    rw [hnone] at hmem
    cases hmem

/-- An engine that is shut is done when nothing is in flight. -/
theorem isDone_iff (h : Reached limit mails s) (hshut : s.engine.Shut) :
    s.engine.isDone = true ↔ s.inFlight = [] := by
  rw [Engine.isDone, hshut.stopping, Bool.true_and, Table.isEmpty, List.isEmpty_iff]
  constructor
  · intro hempty
    rw [List.eq_nil_iff_forall_not_mem]
    intro o hmem
    have hnone : s.engine.table.find? o.id = none := by rw [Table.find?, hempty]; rfl
    have hflight : o ∈ s.operationsOf o.id := List.mem_filter.mpr ⟨hmem, decide_eq_true rfl⟩
    rw [(h.gone_iff (hshut.closed o.id)).mp hnone] at hflight
    cases hflight
  · intro hnone
    rw [List.eq_nil_iff_forall_not_mem]
    intro entry hmem
    have hc := Table.find?_of_mem h.numbered.nodup_ids hmem
    have hidle : s.operationsOf entry.1 = [] := by rw [Course.operationsOf, hnone]; rfl
    rw [(h.gone_iff (hshut.closed entry.1)).mpr hidle] at hc
    cases hc

/-- When no connection is left, every session that has begun has ended once. -/
theorem count_disconnect (h : Reached limit mails s) {id : ConnectionId}
    (hnone : s.engine.table.find? id = none)
    (hbegun : .newConnection ∈ delivered (effectsOn id s.effects)) :
    (delivered (effectsOn id s.effects)).count .disconnect = 1 := by
  cases hstream : streamOf? mails id with
  | none =>
    rw [(h.nothing_of_unknown hstream).2.2] at hbegun
    cases hbegun
  | some transport =>
    obtain ⟨peer, leftover, l, hlived, hs⟩ := h.shows_of_known hstream
    have htells := hlived.tells
    rw [← hs.delivered_eq hlived.confined, ← hs.found, hnone] at htells
    exact htells.count_disconnect

end Reached

/-! ## Draining -/

/-- What comes after a course has been reached: further mail, in any order. -/
inductive Course.Onward (s : Course) : List Mail → Course → Prop
  | here : Onward s [] s
  | mail {later : List Mail} {s' : Course} {mail : Mail} :
      Onward s later s' → s'.Admits mail → Onward s (later ++ [mail]) (s'.after mail)

/-- The engine has handled some mail since all sessions were told to end. -/
structure Course.Drained (closing : Course) (later : List Mail) (last : Course) : Prop where
  /-- Nothing has been told since, and nothing has begun. -/
  silent : ∃ more, last.effects = closing.effects ++ more ∧ told more = [] ∧ begun more = []
  refuses : ∀ transport peer leftover,
    last.engine.dispatch (.completion (.registered transport peer leftover)) =
      (last.engine, [.release transport])
  /-- Requests change nothing. -/
  request : ∀ request, (last.after (.request request)).engine = last.engine ∧
    (last.after (.request request)).inFlight = last.inFlight
  inFlight : last.inFlight.length + later.countP (·.isEnd) = closing.inFlight.length
  /-- The loop ends once all operations that were in flight have come to their ends. -/
  retires : ∀ host : Host, host.engine = last.engine → host.running = true →
    ((∀ allowance, host.engineTurn allowance = (host.retire, .waiting)) ↔
      later.countP (·.isEnd) = closing.inFlight.length)
  /-- No connection is left then, and every session that began has ended once. -/
  ended : later.countP (·.isEnd) = closing.inFlight.length →
    last.engine.table.entries = [] ∧
      ∀ id, .newConnection ∈ delivered (effectsOn id last.effects) →
        (delivered (effectsOn id last.effects)).count .disconnect = 1

/-- All sessions are told to end, and what comes of it. -/
structure Course.Drains (s : Course) : Prop where
  /-- The application is told of the end of every connection that is open, in their order. -/
  told : told (s.engine.dispatch (.request .closeAll)).2 =
    s.engine.openIds.map fun id => (id, .disconnect)
  ascending : s.engine.openIds.Pairwise fun a b => a.value < b.value
  inFlight : (s.after (.request .closeAll)).inFlight = s.inFlight
  later : ∀ later last, (s.after (.request .closeAll)).Onward later last →
    (s.after (.request .closeAll)).Drained later last

namespace Reached

variable {limit : Nat} {mails later : List Mail} {s last : Course}

/-- A course and further mail make a course. -/
theorem append (h : Reached limit mails s) (hlater : s.Onward later last) :
    Reached limit (mails ++ later) last := by
  induction hlater with
  | here => rwa [List.append_nil]
  | mail _ hadmits ih =>
    rw [← List.append_assoc]
    exact ih.mail hadmits

/-- An engine that is shut stays so, with less and less in flight. -/
theorem onward (h : Reached limit mails s) (hshut : s.engine.Shut) (hlater : s.Onward later last) :
    last.engine.Shut ∧ (∃ more, last.effects = s.effects ++ more ∧ told more = [] ∧ begun more = []) ∧
      last.inFlight.length + later.countP (·.isEnd) = s.inFlight.length := by
  induction hlater with
  | here => exact ⟨hshut, ⟨[], (List.append_nil _).symm, rfl, rfl⟩, rfl⟩
  | @mail later s' mail hlater hadmits ih =>
    obtain ⟨hshut', ⟨more, heffects, htold, hbegun⟩, hcount⟩ := ih
    obtain ⟨hshut'', htold', hbegun'⟩ := (h.append hlater).still_after hshut' mail
    refine ⟨hshut'', ⟨more ++ (s'.engine.dispatch mail).2, ?_, ?_, ?_⟩, ?_⟩
    · rw [← List.append_assoc, ← heffects]
      rfl
    · rw [told_append, htold, htold']
      rfl
    · rw [begun_append, hbegun, hbegun']
      rfl
    · have herased := length_erased hadmits
      rw [inFlight_of_begun hbegun', List.countP_append, List.countP_singleton]
      omega

/-- From any point on at which all sessions are told to end, the engine drains. -/
theorem drains (h : Reached limit mails s) : s.Drains where
  told := Engine.told_closeAll h.numbered
  ascending := h.numbered.ascending.filter _
  inFlight := by
    rw [inFlight_of_begun h.begun_closeAll, Mail.eraseP_of_not_end rfl]
  later later last hlater := by
    have hclosing : Reached limit (mails ++ [.request .closeAll]) (s.after (.request .closeAll)) :=
      h.mail nofun
    have hreached := hclosing.append hlater
    obtain ⟨hshut, hsilent, hcount⟩ := hclosing.onward h.shut_closeAll hlater
    have hall : later.countP (·.isEnd) = (s.after (.request .closeAll)).inFlight.length ↔
        last.inFlight = [] := by
      rw [← List.length_eq_zero_iff]
      omega
    exact {
      silent := hsilent
      refuses := Engine.register_of_stopping hshut.stopping
      request := by
        intro request
        refine ⟨hreached.engine_of_request hshut request, ?_⟩
        rw [inFlight_of_begun (hreached.still_after hshut _).2.2, Mail.eraseP_of_not_end]
        cases request <;> rfl
      inFlight := hcount
      retires := by
        intro host hengine hrunning
        rw [hall, ← hreached.isDone_iff hshut, ← hengine, host.retires_iff hrunning]
      ended := by
        intro hdone
        rw [hall, ← hreached.isDone_iff hshut, Engine.isDone, Bool.and_eq_true, Table.isEmpty,
          List.isEmpty_iff] at hdone
        refine ⟨hdone.2, fun id hbegun => hreached.count_disconnect ?_ hbegun⟩
        rw [Table.find?, hdone.2]
        rfl }

/-- A connection that reads is dropped, and with the end of the read the engine is done. -/
theorem drains_reading :
    ∃ s last, Reached 8 [.bring 0] s ∧
      (s.after (.request .closeAll)).Onward
        [.completion (.read ⟨1⟩ 0 .empty (.error .aborted))] last ∧
      told (s.engine.dispatch (.request .closeAll)).2 = [(⟨1⟩, .disconnect)] ∧
      last.engine.table.entries = [] ∧
      (delivered (effectsOn ⟨1⟩ last.effects)).count .disconnect = 1 := by
  have hreached : Reached 8 ([] ++ [.bring 0]) ((Course.start 8).after (.bring 0)) :=
    .mail .start nofun
  have hadmits : (((Course.start 8).after (.bring 0)).after (.request .closeAll)).Admits
      (.completion (.read ⟨1⟩ 0 .empty (.error .aborted))) := by
    intro id errand herrand hend
    exact ⟨.read ⟨1⟩ 0 (ReceiveBuffer.empty), by decide +kernel⟩
  have hlater := Course.Onward.here.mail hadmits
  obtain ⟨htold, -, -, hdrained⟩ := hreached.drains
  obtain ⟨hempty, hends⟩ := (hdrained _ _ hlater).ended (by decide +kernel)
  refine ⟨_, _, hreached, hlater, htold.trans ?_, hempty, hends ⟨1⟩ ?_⟩ <;> decide +kernel

end Reached

end WebSocket
