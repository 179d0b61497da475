import WebSocket.Proofs.Session.Outcomes

/-!
# The engine on one connection

On a connection that is in a numbered table, what the engine does is what the connection does alone
(`Connection.attend`), and the table changes under the connection's number only (`Engine.become`).
From this it follows what a piece of mail makes of the connection under any number and which effects
it has on that connection, whatever the mail is (`agrees_dispatch`, `agrees_register`).
-/

namespace WebSocket

/-! ## The engine -/

namespace Engine

/-- Put what has become of a connection into its place in the table. -/
def become (e : Engine) (id : ConnectionId) : Option Connection → Engine
  | some c => e.put id c
  | none => { e with table := e.table.without id }

variable {e : Engine} {id : ConnectionId} {c : Connection}

theorem find?_put_self (h : e.table.find? id = some c) (c' : Connection) :
    (e.put id c').table.find? id = some c' := by
  simp [put, Table.find?_set, h]

theorem become_put (e : Engine) (id : ConnectionId) (c : Connection) (now : Option Connection) :
    (e.put id c).become id now = e.become id now := by
  cases now with
  | none => simp [become, put, Table.without_set]
  | some c' => simp [become, put, Table.set_set]

theorem find?_become (h : e.table.find? id = some c) (now : Option Connection)
    (other : ConnectionId) :
    (e.become id now).table.find? other = if other = id then now else e.table.find? other := by
  cases now with
  | none => exact Table.find?_without e.table id other
  | some c' => simp [become, put, Table.find?_set, h]

/-- Two states of the engine that differ in the connections of their tables at most. -/
structure Keeps (e e' : Engine) : Prop where
  stopping : e'.stopping = e.stopping
  lastId : e'.table.lastId = e.table.lastId
  limit : e'.table.limit = e.table.limit

theorem Keeps.refl (e : Engine) : e.Keeps e := ⟨rfl, rfl, rfl⟩

theorem Keeps.trans {e e' e'' : Engine} (h : e.Keeps e') (h' : e'.Keeps e'') : e.Keeps e'' :=
  ⟨h'.stopping.trans h.stopping, h'.lastId.trans h.lastId, h'.limit.trans h.limit⟩

theorem keeps_become (e : Engine) (id : ConnectionId) (now : Option Connection) :
    e.Keeps (e.become id now) := by
  cases now <;> exact ⟨rfl, rfl, rfl⟩

theorem numbered_become (h : e.table.Numbered) {now : Option Connection}
    (hnow : ∀ c, now = some c → c.id = id) : (e.become id now).table.Numbered := by
  cases now with
  | none => exact h.without id
  | some c' => exact h.set (hnow c' rfl)

theorem drop_eq (h : e.table.find? id = some c) (hid : c.id = id) :
    e.drop id = (e.become id c.dropped.1, c.dropped.2) := by
  have hfound := find?_put_self h c.close.1
  have hid' : c.close.1.id = id := c.close_id.trans hid
  simp only [drop, h, remove, Table.erase?_of_find? hfound, Connection.dropped, hid']
  by_cases hremovable : c.close.1.isRemovable
  · simp [hremovable, become, put, Table.without_set]
  · simp [hremovable, become]

theorem violate_eq (h : e.table.find? id = some c) (hid : c.id = id) (error : FrameError) :
    e.violate id error = (e.become id (c.violated error).1, (c.violated error).2) := by
  simp only [violate, drop_eq h hid, Connection.violated, hid]

theorem fail_eq (h : e.table.find? id = some c) (hid : c.id = id) (notice : Notice) :
    e.fail id notice = (e.become id (c.failed notice).1, (c.failed notice).2) := by
  simp only [fail, drop_eq h hid, Connection.failed]

theorem process_eq (h : e.table.find? id = some c) (hid : c.id = id) :
    e.process id = (e.become id c.processed.1, c.processed.2) := by
  have hid' := c.grows_consume.id.trans hid
  simp only [process, h, Connection.processed]
  cases c.consume.violation with
  | none => simp only [become]
  | some error =>
    simp only [violate_eq (find?_put_self h c.consume.connection) hid', become_put]

theorem onRead_eq (h : e.table.find? id = some c) (hid : c.id = id) (reader : Transport)
    (input : ReceiveBuffer) (result : Except Fault Nat) :
    e.onRead id reader input result =
      (e.become id (c.attend (.read reader input result)).1,
        (c.attend (.read reader input result)).2) := by
  have hfound := find?_put_self h (c.finishRead reader input)
  have hid' : (c.finishRead reader input).id = id := hid
  simp only [onRead, h, Connection.attend]
  split
  · rw [drop_eq hfound hid', become_put]
  · cases result with
    | error fault => simp only [fail_eq hfound hid', become_put, hid']
    | ok count =>
      cases count with
      | zero => simp only [drop_eq hfound hid', become_put]
      | succ count => simp only [process_eq hfound hid', become_put]

theorem onWrite_eq (h : e.table.find? id = some c) (hid : c.id = id) (writer : Transport)
    (result : Except Fault Unit) :
    e.onWrite id writer result =
      (e.become id (c.attend (.write writer result)).1, (c.attend (.write writer result)).2) := by
  have hfound := find?_put_self h (c.finishWrite writer).1
  have hid' : (c.finishWrite writer).1.id = id := (c.continues_finishWrite writer).id.trans hid
  simp only [onWrite, h, Connection.attend]
  split
  · rw [drop_eq hfound hid', become_put]
  · split
    · rw [fail_eq hfound hid', become_put, hid']
    · simp only [Connection.wrote]
      split
      · simp only [drop_eq hfound hid', become_put]
      · simp only [become, put, Table.set_set]

theorem send_eq (h : e.table.find? id = some c) (message : Message) (loan : Option Loan) :
    e.send id message loan =
      (e.become id (c.attend (.send message loan)).1, (c.attend (.send message loan)).2) := by
  simp only [send, h, Connection.attend, become]

/-! ## A piece of mail -/

theorem dispatch_of_errand {mail : Mail} {errand : Errand} (hmail : mail.errand? = some (id, errand))
    (h : e.table.find? id = some c) (hid : c.id = id) :
    e.dispatch mail = (e.become id (c.attend errand).1, (c.attend errand).2) := by
  cases mail with
  | completion completion =>
    cases completion with
    | registered transport peer leftover => cases hmail
    | read other reader input result => cases hmail; exact onRead_eq h hid reader input result
    | write other writer result => cases hmail; exact onWrite_eq h hid writer result
  | request request =>
    cases request with
    | send other message loan => cases hmail; exact send_eq h message loan
    | drop other => cases hmail; exact drop_eq h hid
    | closeAll => cases hmail

theorem dispatch_of_absent {mail : Mail} {errand : Errand} (hmail : mail.errand? = some (id, errand))
    (h : e.table.find? id = none) :
    (e.dispatch mail).1 = e ∧ ∀ other, effectsOn other (e.dispatch mail).2 = [] := by
  cases mail with
  | completion completion =>
    cases completion with
    | registered transport peer leftover => cases hmail
    | read other reader input result => cases hmail; simp [dispatch, onRead, h, effectsOn, Effect.owner?]
    | write other writer result => cases hmail; simp [dispatch, onWrite, h, effectsOn, Effect.owner?]
  | request request =>
    cases request with
    | send other message loan => cases hmail; simp [dispatch, send, h, effectsOn]
    | drop other => cases hmail; simp [dispatch, drop, h, effectsOn]
    | closeAll => cases hmail

/-- What becomes of the connection under a number, if there is one, when something may be asked of
it. -/
def meet : Option Connection → Option Errand → Option Connection × List Effect
  | some c, some errand => c.attend errand
  | now, _ => (now, [])

@[simp] theorem meet_none (now : Option Connection) : meet now none = (now, []) := by
  cases now <;> rfl

/-- Under the number `id`, the outcome of a dispatch is that of one connection alone. -/
structure Agrees (id : ConnectionId) (outcome : Engine × List Effect)
    (alone : Option Connection × List Effect) : Prop where
  found : outcome.1.table.find? id = alone.1
  felt : effectsOn id outcome.2 = effectsOn id alone.2

theorem agrees_become (h : e.table.find? id = some c) {alone : Option Connection × List Effect}
    (hc : Confined id alone.2) (other : ConnectionId) :
    Agrees other (e.become id alone.1, alone.2)
      (if other = id then alone else (e.table.find? other, [])) where
  found := by
    rw [find?_become h]
    split <;> rfl
  felt := by
    split
    · rfl
    · rename_i hne
      exact hc.effectsOn_other hne

theorem agrees_drop (h : e.table.Numbered) (id other : ConnectionId) :
    Agrees other (e.drop id) (if other = id then meet (e.table.find? other) (some .drop)
      else (e.table.find? other, [])) := by
  cases hc : e.table.find? id with
  | none =>
    have hdrop : e.drop id = (e, []) := by simp only [drop, hc]
    rw [hdrop]
    split
    · rename_i hother
      rw [hother, hc]
      exact ⟨hc, rfl⟩
    · exact ⟨rfl, rfl⟩
  | some c =>
    have hid := h.id_of_find? hc
    rw [drop_eq hc hid]
    have hconfined : Confined id c.dropped.2 := hid ▸ c.confined_dropped
    have := agrees_become hc hconfined other
    split at this
    · rename_i hother
      rw [if_pos hother, hother, hc]
      exact hother ▸ this
    · rename_i hother
      rw [if_neg hother]
      exact this

theorem numbered_drop (h : e.table.Numbered) (id : ConnectionId) :
    (e.drop id).1.table.Numbered := by
  cases hc : e.table.find? id with
  | none => simpa only [drop, hc] using h
  | some c =>
    have hid := h.id_of_find? hc
    rw [drop_eq hc hid]
    exact numbered_become h fun c' hc' => (c.dropped_id hc').trans hid

theorem keeps_drop (h : e.table.Numbered) (id : ConnectionId) : e.Keeps (e.drop id).1 := by
  cases hc : e.table.find? id with
  | none => simpa only [drop, hc] using Keeps.refl e
  | some c =>
    rw [drop_eq hc (h.id_of_find? hc)]
    exact keeps_become e id c.dropped.1

/-- Dropping several connections drops each of them alone. -/
theorem agrees_dropAll (h : e.table.Numbered) (ids : List ConnectionId) (hids : ids.Nodup)
    (other : ConnectionId) :
    Agrees other (e.dropAll ids)
      (if other ∈ ids then meet (e.table.find? other) (some .drop)
        else (e.table.find? other, [])) := by
  induction ids generalizing e with
  | nil => exact ⟨rfl, rfl⟩
  | cons id ids ih =>
    obtain ⟨hfresh, hids⟩ := List.nodup_cons.mp hids
    have first := agrees_drop h id other
    have later := ih (numbered_drop h id) hids
    by_cases hother : other = id
    -- The connection is met by its own drop only, since no number stands in the list twice.
    · subst hother
      rw [if_pos rfl] at first
      rw [if_neg hfresh] at later
      rw [if_pos List.mem_cons_self]
      refine ⟨later.found.trans first.found, ?_⟩
      simp only [dropAll, effectsOn_append, first.felt, later.felt]
      exact List.append_nil _
    · rw [if_neg hother] at first
      rw [first.found] at later
      simp only [List.mem_cons, hother, false_or]
      refine ⟨later.found, ?_⟩
      simp only [dropAll, effectsOn_append, first.felt, later.felt]
      rfl

theorem numbered_dropAll (h : e.table.Numbered) (ids : List ConnectionId) :
    (e.dropAll ids).1.table.Numbered := by
  induction ids generalizing e with
  | nil => exact h
  | cons id ids ih => exact ih (numbered_drop h id)

theorem keeps_dropAll (h : e.table.Numbered) (ids : List ConnectionId) :
    e.Keeps (e.dropAll ids).1 := by
  induction ids generalizing e with
  | nil => exact .refl e
  | cons id ids ih => exact (keeps_drop h id).trans (ih (numbered_drop h id))

theorem agrees_closeAll (h : e.table.Numbered) (id : ConnectionId) :
    Agrees id e.closeAll (meet (e.table.find? id) (some .drop)) := by
  have hall := agrees_dropAll (e := { e with stopping := true }) h e.table.ids h.nodup_ids id
  have halone : (if id ∈ e.table.ids then meet (e.table.find? id) (some .drop)
      else (e.table.find? id, [])) = meet (e.table.find? id) (some .drop) := by
    split
    · rfl
    · rename_i habsent
      rw [Table.find?_eq_none_iff.mpr habsent]
      rfl
  rw [halone] at hall
  exact ⟨hall.found, hall.felt⟩

theorem agrees_errand (h : e.table.Numbered) {mail : Mail} {errand : Errand}
    (hmail : mail.errand? = some (id, errand)) (other : ConnectionId) :
    Agrees other (e.dispatch mail) (meet (e.table.find? other) (mail.errandFor? other)) := by
  rw [mail.errandFor?_of_errand hmail]
  cases hc : e.table.find? id with
  | none =>
    obtain ⟨hsame, hnone⟩ := dispatch_of_absent hmail hc
    have halone : meet (e.table.find? other) (if id = other then some errand else none) =
        (e.table.find? other, []) := by
      split
      · rename_i hother
        rw [← hother, hc]
        rfl
      · exact meet_none _
    rw [halone]
    exact ⟨by rw [hsame], hnone other⟩
  | some c =>
    have hid := h.id_of_find? hc
    rw [dispatch_of_errand hmail hc hid]
    have hconfined : Confined id (c.attend errand).2 := hid ▸ c.confined_attend errand
    have hagrees := agrees_become hc hconfined other
    by_cases hother : other = id
    · subst hother
      rw [if_pos rfl] at hagrees
      rw [if_pos rfl, hc]
      exact hagrees
    · rw [if_neg hother] at hagrees
      rw [if_neg (Ne.symm hother), meet_none]
      exact hagrees

/-- What a piece of mail that brings no new connection does to the connection under any number is
what that connection does alone. -/
theorem agrees_dispatch (h : e.table.Numbered) {mail : Mail}
    (hmail : ∀ transport peer leftover,
      mail ≠ .completion (.registered transport peer leftover)) (id : ConnectionId) :
    Agrees id (e.dispatch mail) (meet (e.table.find? id) (mail.errandFor? id)) := by
  rcases mail.kinds with ⟨transport, peer, leftover, rfl⟩ | rfl | ⟨other, errand, herrand⟩
  · exact absurd rfl (hmail transport peer leftover)
  · exact agrees_closeAll h id
  · exact agrees_errand h herrand id

theorem register_eq (h : e.table.Numbered) (hstopping : e.stopping = false)
    (transport : Transport) (peer : Option SocketAddress) (leftover : ReceiveBuffer) :
    let next : ConnectionId := ⟨e.table.lastId + 1⟩
    let c := Connection.new next transport peer leftover e.table.limit
    let added : Engine := { e with table := (e.table.add transport peer leftover).1 }
    added.table.find? next = some c ∧
      e.register transport peer leftover = (added.become next c.opened.1, c.opened.2) := by
  intro next c added
  have hfound : added.table.find? next = some c :=
    (h.find?_add transport peer leftover next).trans (if_pos rfl)
  refine ⟨hfound, ?_⟩
  have hprocess := process_eq hfound rfl
  unfold register
  rw [if_neg (by simp [hstopping])]
  show ((added.process next).1, _ :: _ :: _ :: (added.process next).2) = _
  rw [hprocess]
  rfl

/-- A stream that is let in begins a session under the next number and touches no other. -/
theorem agrees_register (h : e.table.Numbered) (hstopping : e.stopping = false)
    (transport : Transport) (peer : Option SocketAddress) (leftover : ReceiveBuffer)
    (id : ConnectionId) :
    Agrees id (e.register transport peer leftover)
      (if id.value = e.table.lastId + 1 then
        (Connection.new id transport peer leftover e.table.limit).opened
      else (e.table.find? id, [])) := by
  obtain ⟨hfound, hregister⟩ := register_eq h hstopping transport peer leftover
  rw [hregister]
  have hconfined := (Connection.new ⟨e.table.lastId + 1⟩ transport peer leftover
    e.table.limit).confined_opened
  have hagrees := agrees_become hfound hconfined id
  by_cases hid : id = ⟨e.table.lastId + 1⟩
  · subst hid
    rw [if_pos rfl] at hagrees ⊢
    exact hagrees
  · have hvalue : id.value ≠ e.table.lastId + 1 := by
      intro hv
      apply hid
      cases id
      simp_all
    have hold := h.find?_add transport peer leftover id
    rw [if_neg hvalue] at hold ⊢
    rw [if_neg hid] at hagrees
    rw [← hold]
    exact hagrees

/-! ## The whole table -/

theorem numbered_dispatch (h : e.table.Numbered) (mail : Mail) :
    (e.dispatch mail).1.table.Numbered := by
  rcases mail.kinds with ⟨transport, peer, leftover, rfl⟩ | rfl | ⟨id, errand, herrand⟩
  · cases hstopping : e.stopping with
    | true => simpa only [dispatch, register, hstopping, if_true] using h
    | false =>
      obtain ⟨hfound, hregister⟩ := register_eq h hstopping transport peer leftover
      simp only [dispatch, hregister]
      refine numbered_become (h.add transport peer leftover) fun c' hc' => ?_
      exact Connection.processed_id hc'
  · exact numbered_dropAll (e := { e with stopping := true }) h e.table.ids
  · cases hc : e.table.find? id with
    | none => rw [(dispatch_of_absent herrand hc).1]; exact h
    | some c =>
      have hid := h.id_of_find? hc
      rw [dispatch_of_errand herrand hc hid]
      exact numbered_become h fun c' hc' => (Connection.attend_id hc').trans hid

theorem keeps_errand (h : e.table.Numbered) {mail : Mail} {errand : Errand}
    (hmail : mail.errand? = some (id, errand)) : e.Keeps (e.dispatch mail).1 := by
  cases hc : e.table.find? id with
  | none =>
    rw [(dispatch_of_absent hmail hc).1]
    exact .refl e
  | some c =>
    rw [dispatch_of_errand hmail hc (h.id_of_find? hc)]
    exact keeps_become e id (c.attend errand).1

/-- The limit on payloads is the same for all connections. -/
theorem limit_dispatch (h : e.table.Numbered) (mail : Mail) :
    (e.dispatch mail).1.table.limit = e.table.limit := by
  rcases mail.kinds with ⟨transport, peer, leftover, rfl⟩ | rfl | ⟨id, errand, herrand⟩
  · cases hstopping : e.stopping with
    | true => simp only [dispatch, register, hstopping, if_true]
    | false =>
      obtain ⟨-, hregister⟩ := register_eq h hstopping transport peer leftover
      simp only [dispatch, hregister]
      exact (keeps_become _ _ _).limit
  · exact (keeps_dropAll (e := { e with stopping := true }) h e.table.ids).limit
  · exact (keeps_errand h herrand).limit

/-- The engine begins to stop when all sessions are to end, and never goes back. -/
theorem stopping_dispatch (h : e.table.Numbered) (mail : Mail) :
    (e.dispatch mail).1.stopping = (e.stopping || mail.isCloseAll) := by
  rcases mail.kinds with ⟨transport, peer, leftover, rfl⟩ | rfl | ⟨id, errand, herrand⟩
  · cases hstopping : e.stopping with
    | true => simp only [dispatch, register, hstopping, if_true, Bool.true_or]
    | false =>
      obtain ⟨-, hregister⟩ := register_eq h hstopping transport peer leftover
      simp only [dispatch, hregister]
      exact (keeps_become _ _ _).stopping.trans hstopping
  · have hkeeps := keeps_dropAll (e := { e with stopping := true }) h e.table.ids
    exact hkeeps.stopping.trans (Bool.or_true e.stopping).symm
  · rw [(keeps_errand h herrand).stopping, mail.isCloseAll_of_errand herrand, Bool.or_false]

/-- A number is given out to each stream that is let in. -/
theorem lastId_dispatch (h : e.table.Numbered) (mail : Mail) :
    (e.dispatch mail).1.table.lastId =
      e.table.lastId + if e.stopping then 0 else mail.stream?.toList.length := by
  rcases mail.kinds with ⟨transport, peer, leftover, rfl⟩ | rfl | ⟨id, errand, herrand⟩
  · cases hstopping : e.stopping with
    | true => simp only [dispatch, register, hstopping, if_true, Nat.add_zero]
    | false =>
      obtain ⟨-, hregister⟩ := register_eq h hstopping transport peer leftover
      simp only [dispatch, hregister]
      exact (keeps_become _ _ _).lastId
  · have hkeeps := keeps_dropAll (e := { e with stopping := true }) h e.table.ids
    rw [show (Mail.request .closeAll).stream?.toList.length = 0 from rfl, ite_self]
    exact hkeeps.lastId
  · rw [(keeps_errand h herrand).lastId, mail.stream?_of_errand herrand]
    simp

end Engine

end WebSocket
