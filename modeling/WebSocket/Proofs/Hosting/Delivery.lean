import WebSocket.Proofs.Hosting.Outgoing

/-!
# Delivery

A piece of mail leaves what has gone out to a client as it is, and when the write of a frame begins
with it, all that was begun before is out (`Scene.Sends.handles`).  So scenes stay faithful to their
courses however long they run (`Scene.Faithful.run`), and each client gets the frames that the
engine has accepted for it, in that order, cut at most at the end (`Scene.Delivers`).
-/

namespace WebSocket

/-! ## Writes that begin -/

theorem Course.length_nextWrites (s : Course) (id : ConnectionId) (mail : Mail) :
    (s.nextWrites id mail).length =
      ((begun (s.engine.dispatch mail).2).map Operation.ticket).countP (Ticket.isOf id false) := by
  rw [nextWrites, begun_effectsOn, writes, List.filter_filter, List.countP_map,
    List.countP_eq_length_filter]
  congr 2
  funext o
  cases o with
  | read => exact (Bool.and_false _).symm
  | write => exact Bool.and_comm ..

theorem Reached.length_nextWrites_le {limit : Nat} {mails : List Mail} {s : Course} {mail : Mail}
    (h : Reached limit mails s) (hadmits : s.Admits mail) (id : ConnectionId) :
    (s.nextWrites id mail).length ≤ 1 := by
  have hsingle := ((Reached.mail h hadmits).single id).2
  rw [s.writesOf_after_eq, List.length_append] at hsingle
  omega

/-- A write that begins has its whole frame still to put on the stream. -/
theorem Course.mem_nextWrites {s : Course} {mail : Mail} {w : Writing}
    (h : w ∈ (begun (s.engine.dispatch mail).2).filterMap (·.writing?)) :
    w.unsent = w.frame.wire ∧
      ∃ o ∈ s.nextWrites w.id mail, o.frame? = some w.frame := by
  obtain ⟨o, hmem, hwriting⟩ := List.mem_filterMap.mp h
  cases o with
  | read => cases hwriting
  | write id writer outgoing =>
    cases hwriting
    refine ⟨rfl, .write id writer outgoing, ?_, rfl⟩
    rw [nextWrites, begun_effectsOn, writes, List.filter_filter]
    exact List.mem_filter.mpr ⟨hmem, by simp [Operation.id, Operation.isRead]⟩

/-- The one write that begins. -/
theorem wires_framesOf_one {operations : List Operation} (hone : operations.length ≤ 1)
    {o : Operation} (hmem : o ∈ operations) {frame : ServerFrame} (hframe : o.frame? = some frame) :
    wires (framesOf operations) = frame.wire := by
  cases operations with
  | nil => cases hmem
  | cons first later =>
    rw [List.length_cons] at hone
    have hnone : later = [] := List.length_eq_zero_iff.mp (by omega)
    subst hnone
    rw [List.mem_singleton] at hmem
    subst hmem
    simp [framesOf, hframe, wires]

/-- A stream is let in under a number by the mail that brings it. -/
theorem stream?_of_begins {mails : List Mail} {mail : Mail} {id : ConnectionId}
    {transport : Transport} (hnone : streamOf? mails id = none)
    (hsome : streamOf? (mails ++ [mail]) id = some transport) : mail.stream? = some transport := by
  cases hstream : mail.stream? with
  | none =>
    rw [streamOf?_append_of_none (.inr hstream), hnone] at hsome
    cases hsome
  | some brought =>
    cases hclosing : mails.any (·.isCloseAll) with
    | true =>
      rw [streamOf?_append_of_none (.inl hclosing), hnone] at hsome
      cases hsome
    | false =>
      rw [streamOf?_append_of_some hclosing hstream, hnone] at hsome
      split at hsome
      · exact hsome
      · cases hsome

namespace Scene

variable {σ : Scene} {limit : Nat} {s : Course} {id : ConnectionId} {mail : Mail} {rest : Host}
  {bytes : Bytes}

/-! ## Mail -/

/-- No write begins while one is in flight. -/
theorem Follows.nextWrites_nil (h : σ.Follows limit s) (hrunning : σ.host.running = true)
    (ht : σ.host.Takes rest mail)
    (hbusy : 0 < rest.tickets.countP (Ticket.isOf id false)) : s.nextWrites id mail = [] := by
  have hone := (h.handles hrunning ht).countP_tickets_le id false
  have hafter := (h.performs ht).tickets_perm.countP_eq (Ticket.isOf id false)
  have hlength := s.length_nextWrites id mail
  rw [List.countP_append] at hafter
  have hsame : Host.tickets { rest with engine := (s.engine.dispatch mail).1 } = rest.tickets := rfl
  rw [hsame] at hafter
  have hone : (rest.handle mail).tickets.countP (Ticket.isOf id false) ≤ 1 := hone
  exact List.length_eq_zero_iff.mp (by omega)

/-- When a write begins, and when an open connection writes nothing, whatever was begun before is
out. -/
theorem Sends.all_out {transport : Transport} (hs : σ.Sends s id transport bytes)
    (h : σ.Follows limit s) (ht : σ.host.Takes rest mail)
    (hstream : streamOf? σ.handled id = some transport)
    (hnext : s.nextWrites id mail ≠ [] ∨
      isOpen ((s.after mail).engine.table.find? id) = true ∧ (s.after mail).writesOf id = []) :
    bytes = wires (s.started id) := by
  rcases h.reached.writes_next (h.admits ht) hnext with hnone | ⟨hopen, hidle | ⟨writer, hmail⟩⟩
  · exact absurd (hstream.symm.trans hnone) nofun
  · exact hs.idle hopen hidle
  · obtain ⟨first, hfirst, -, -, hmem⟩ := ht.completions
    refine hs.ended writer ?_
    rw [hfirst]
    exact List.mem_append_left _ (hmem _ hmail)

/-- What was on its way to a client is still there when a piece of mail has been handled. -/
theorem Follows.outbound_handles (h : σ.Follows limit s) (ht : σ.host.Takes rest mail)
    (transport : Transport) :
    (rest.handle mail).outbound transport = σ.host.outbound transport := by
  rw [(h.performs ht).outbound transport, Host.outbound, Host.outbound, ht.links]

theorem Follows.completions_handles (h : σ.Follows limit s) (ht : σ.host.Takes rest mail)
    {writer : Transport} {result : Except Fault Unit}
    (hmem : .write id writer result ∈ (rest.handle mail).completions) :
    .write id writer result ∈ rest.completions := by
  obtain ⟨added, hadded, hbrings⟩ := (h.performs ht).completions
  rw [hadded, List.mem_append] at hmem
  rcases hmem with hmem | hmem
  · exact hmem
  · exact absurd hmem (not_mem_of_no_tickets hbrings.tickets id writer result)

theorem Follows.writings_handles (h : σ.Follows limit s) (ht : σ.host.Takes rest mail)
    {w : Writing} (hmem : w ∈ (rest.handle mail).jobs.filterMap (·.writing?)) :
    w ∈ σ.host.jobs.filterMap (·.writing?) ∨
      w ∈ (begun (s.engine.dispatch mail).2).filterMap (·.writing?) := by
  rw [(h.performs ht).writings, List.mem_append] at hmem
  rw [← ht.jobs]
  exact hmem

/-- The octets of a frame whose write has just begun are all there is to put on the stream. -/
theorem Follows.unsent_of_begun (h : σ.Follows limit s) (ht : σ.host.Takes rest mail)
    {w : Writing} (hmem : w ∈ (begun (s.engine.dispatch mail).2).filterMap (·.writing?)) :
    s.nextWrites w.id mail ≠ [] ∧ w.unsent = wires (framesOf (s.nextWrites w.id mail)) := by
  obtain ⟨hunsent, o, ho, hframe⟩ := Course.mem_nextWrites hmem
  have hone := h.reached.length_nextWrites_le (h.admits ht) w.id
  rw [wires_framesOf_one hone ho hframe]
  exact ⟨List.ne_nil_of_mem ho, hunsent⟩

theorem nextWrites_nil_of_idle (hidle : (s.after mail).writesOf id = []) :
    s.nextWrites id mail = [] := by
  rw [s.writesOf_after_eq] at hidle
  exact (List.append_eq_nil_iff.mp hidle).2

/-- Mail leaves the octets that are out as they are, and it begins a write only when all that was
begun before is out. -/
theorem Sends.handles {transport : Nat} (hs : σ.Sends s id transport bytes)
    (h : σ.Follows limit s) (hrunning : σ.host.running = true) (ht : σ.host.Takes rest mail)
    (hstream : streamOf? σ.handled id = some transport) :
    ((σ.take mail rest).become (rest.handle mail)).Sends (s.after mail) id transport bytes where
  sent := by
    -- The stream comes only once, so it is not let in again and keeps its beginning.
    have hnot : mail.stream? ≠ some transport := fun hbrings =>
      h.not_mem_comers hstream (ht.mem_comers hbrings)
    show σ.taken transport ++ (rest.handle mail).outbound transport =
      (if mail.stream? = some transport then _ else σ.before transport) ++ bytes
    rw [if_neg hnot, h.outbound_handles ht]
    exact hs.sent
  begun := by
    rw [s.started_after, wires_append]
    exact hs.begun.trans (List.prefix_append _ _)
  running := by
    intro w hw hid
    rw [s.started_after, wires_append]
    rcases h.writings_handles ht hw with hold | hnew
    -- The write was under way before, so none begins with the mail.
    · have hnone : s.nextWrites id mail = [] := by
        refine h.nextWrites_nil hrunning ht ?_
        have hpos := countP_pos_of_writing hold
        rw [hid] at hpos
        rw [Host.tickets, ht.jobs, List.countP_append]
        omega
      rw [hnone, hs.running w hold hid]
      exact (List.append_nil _).symm
    -- The write begins with the mail, so what was begun before is out.
    · obtain ⟨hnext, hunsent⟩ := h.unsent_of_begun ht hnew
      rw [hid] at hnext hunsent
      rw [hunsent, hs.all_out h ht hstream (.inl hnext)]
  ended := by
    intro writer hended
    have hrest := h.completions_handles ht hended
    have hnone : s.nextWrites id mail = [] := by
      refine h.nextWrites_nil hrunning ht ?_
      have hpos := countP_pos_of_completion hrest
      rw [Host.tickets, List.countP_append]
      omega
    obtain ⟨first, hfirst, -, -, -⟩ := ht.completions
    have hall : bytes = wires (s.started id) := by
      refine hs.ended writer ?_
      rw [hfirst]
      exact List.mem_append_right _ hrest
    rw [s.started_after, wires_append, hnone, hall]
    exact (List.append_nil _).symm
  idle := by
    intro hopen hidle
    rw [s.started_after, wires_append, nextWrites_nil_of_idle hidle,
      hs.all_out h ht hstream (.inr ⟨hopen, hidle⟩)]
    exact (List.append_nil _).symm

/-- Nothing is out on a stream that has just been let in. -/
theorem sends_begins {transport : Nat} (h : σ.Follows limit s) (ht : σ.host.Takes rest mail)
    (hnone : streamOf? σ.handled id = none)
    (hsome : streamOf? (σ.handled ++ [mail]) id = some transport) :
    ((σ.take mail rest).become (rest.handle mail)).Sends (s.after mail) id transport [] := by
  have hbrings := stream?_of_begins hnone hsome
  have hcomer := ht.mem_comers hbrings
  obtain ⟨-, -, heffects⟩ := h.reached.nothing_of_unknown hnone
  have hstarted : s.started id = [] := by
    rw [Course.started, heffects]
    rfl
  have hunknown (isRead : Bool) (other : Transport) : (id, isRead, other) ∉ σ.host.tickets := by
    intro hmem
    have hstream := h.stream_of_ticket hmem
    rw [hnone] at hstream
    cases hstream
  exact {
    sent := by
      have hpos := List.count_pos_iff.mpr hcomer
      show σ.taken transport ++ (rest.handle mail).outbound transport =
        (if mail.stream? = some transport then σ.sent transport else _) ++ []
      rw [if_pos hbrings, h.outbound_handles ht, List.append_nil]
      rfl
    begun := List.nil_prefix
    running := by
      intro w hw hid
      rw [s.started_after, hstarted]
      rcases h.writings_handles ht hw with hold | hnew
      · obtain ⟨job, hjob, hwriting⟩ := List.mem_filterMap.mp hold
        have hticket := ticket_of_writing hwriting
        rw [hid] at hticket
        refine absurd (List.mem_append_left _ ?_) (hunknown false w.transport)
        rw [← hticket]
        exact List.mem_map_of_mem hjob
      · obtain ⟨-, hunsent⟩ := h.unsent_of_begun ht hnew
        rw [hid] at hunsent
        exact hunsent
    ended := by
      intro writer hended
      have hrest := h.completions_handles ht hended
      obtain ⟨first, hfirst, -, -, -⟩ := ht.completions
      refine absurd (List.mem_append_right _ ?_) (hunknown false writer)
      rw [hfirst]
      exact List.mem_filterMap.mpr ⟨_, List.mem_append_right _ hrest, rfl⟩
    idle := by
      intro hopen hidle
      rw [s.started_after, hstarted, nextWrites_nil_of_idle hidle]
      rfl }

/-! ## Runs -/

/-- A scene whose host follows a course and has sent what was begun in it. -/
structure Faithful (σ : Scene) (limit : Nat) (s : Course) : Prop where
  follows : σ.Follows limit s
  sends : ∀ id transport, streamOf? σ.handled id = some transport →
    ∃ bytes, σ.Sends s id transport bytes

theorem faithful_start (settings : Settings) (application : Application) (address : String) :
    (start settings application address).Faithful settings.payloadLimit
      (.start settings.payloadLimit) where
  follows := {
    reached := .start
    engine := rfl
    tickets := List.Perm.nil
    streams := fun _ => Nat.zero_le _
    posted := ⟨[], rfl, fun _ => rfl⟩
    finished := nofun }
  sends id transport hstream := by
    have hnone : streamOf? [] id = none := by
      unfold streamOf?
      split <;> rfl
    exact absurd (hstream.symm.trans hnone) nofun

/-- Every move keeps to what was begun in the course. -/
theorem Faithful.goes (h : σ.Faithful limit s) {σ' : Scene} (hg : σ.Goes σ') :
    σ'.handled = σ.handled ∧ σ'.Faithful limit s ∨
      ∃ mail, σ'.handled = σ.handled ++ [mail] ∧ σ'.Faithful limit (s.after mail) := by
  obtain ⟨hf, hsends⟩ := h
  cases hg with
  | rests => exact .inl ⟨rfl, hf, hsends⟩
  | quiet hq =>
    refine .inl ⟨rfl, hf.quiet hq, fun id transport hstream => ?_⟩
    obtain ⟨bytes, hs⟩ := hsends id transport hstream
    exact ⟨bytes, hs.quiet hf hstream hq⟩
  | retires _ hdone =>
    refine .inl ⟨rfl, hf.retires hdone, fun id transport hstream => ?_⟩
    obtain ⟨bytes, hs⟩ := hsends id transport hstream
    exact ⟨bytes, hs.retires hf hstream hdone⟩
  | takes hcore hlength hsent =>
    refine .inl ⟨rfl, hf.takes hcore hlength, fun id transport hstream => ?_⟩
    obtain ⟨bytes, hs⟩ := hsends id transport hstream
    exact ⟨bytes, hs.takes hcore hsent⟩
  | @advances host job part hmem ha =>
    refine .inl ⟨rfl, hf.advances ha, fun id transport hstream => ?_⟩
    obtain ⟨bytes, hs⟩ := hsends id transport hstream
    by_cases hown : ∃ writer, job.ticket = (id, false, writer)
    · obtain ⟨writer, hticket⟩ := hown
      exact ⟨_, hs.advances_own hf hstream hmem ha hticket⟩
    · exact ⟨bytes, hs.advances_other hf hstream hmem ha (not_exists.mp hown)⟩
  | @handles mail rest hrunning ht =>
    refine .inr ⟨mail, rfl, hf.handles hrunning ht, fun id transport hstream => ?_⟩
    have hstream : streamOf? (σ.handled ++ [mail]) id = some transport := hstream
    rcases hf.reached.step mail id with ⟨_, _, _, hnone, -, -, -⟩ | ⟨hsame, -⟩
    · exact ⟨[], sends_begins hf ht hnone hstream⟩
    · rw [hsame] at hstream
      obtain ⟨bytes, hs⟩ := hsends id transport hstream
      exact ⟨bytes, hs.handles hf hrunning ht hstream⟩

/-- Scenes stay faithful for as long as they run. -/
theorem Faithful.run (h : σ.Faithful limit s) (moves : List Move) :
    ∃ s', (σ.run moves).Faithful limit s' := by
  induction moves generalizing σ s with
  | nil => exact ⟨s, h⟩
  | cons move moves ih =>
    rcases h.goes (h.follows.goes move) with ⟨-, h'⟩ | ⟨mail, -, h'⟩
    · exact ih h'
    · exact ih h'

/-- A connection that is not open any more takes no frame and begins none, however long the scene
runs. -/
theorem Faithful.shut (h : σ.Faithful limit s) {transport : Transport}
    (hstream : streamOf? σ.handled id = some transport)
    (hshut : isOpen (s.engine.table.find? id) = false) (moves : List Move) :
    ∃ s', (σ.run moves).Faithful limit s' ∧ s'.started id = s.started id ∧
      joined (effectsOn id s'.effects) = joined (effectsOn id s.effects) := by
  induction moves generalizing σ s with
  | nil => exact ⟨s, h, rfl, rfl⟩
  | cons move moves ih =>
    rcases h.goes (h.follows.goes move) with ⟨hhandled, h'⟩ | ⟨mail, hhandled, h'⟩
    · exact ih h' (hhandled ▸ hstream) hshut
    · obtain ⟨hshut', hbegun, hjoined⟩ := h.follows.reached.shut_after mail hstream hshut
      have hstream' : streamOf? (σ.move move).handled id = some transport := by
        rw [hhandled]
        exact (h.follows.reached.step_of_known mail hstream).1
      obtain ⟨s', hs', hstarted, htaken⟩ := ih h' hstream' hshut'
      refine ⟨s', hs', hstarted.trans ?_, htaken.trans ?_⟩
      · rw [s.started_after, Course.nextWrites, hbegun]
        exact List.append_nil _
      · show joined (effectsOn id (s.effects ++ (s.engine.dispatch mail).2)) = _
        rw [effectsOn_append, joined_append, hjoined, List.append_nil]

/-! ## What was accepted -/

/-- The frames that the engine has taken into the queue of a connection. -/
def accepted (σ : Scene) (limit : Nat) (id : ConnectionId) : List ServerFrame :=
  joined (effectsOn id ((Engine.new limit).run σ.handled).2)

/-- The frames whose write the engine has begun for a connection. -/
def started (σ : Scene) (limit : Nat) (id : ConnectionId) : List ServerFrame :=
  framesOf (begun (effectsOn id ((Engine.new limit).run σ.handled).2))

theorem Follows.accepted_eq (h : σ.Follows limit s) (id : ConnectionId) :
    σ.accepted limit id = joined (effectsOn id s.effects) := by
  rw [accepted, h.reached.run_eq]

theorem Follows.started_eq (h : σ.Follows limit s) (id : ConnectionId) :
    σ.started limit id = s.started id := by
  rw [Scene.started, h.reached.run_eq]
  rfl

/-- Whether no write is in flight for a connection, neither under way nor with its completion
waiting. -/
def Idle (σ : Scene) (id : ConnectionId) : Prop :=
  (∀ job ∈ σ.host.jobs, job.task ≠ .writer id) ∧
    ∀ writer result, .write id writer result ∉ σ.host.completions

theorem Follows.writesOf_of_idle (h : σ.Follows limit s) (hidle : σ.Idle id) :
    s.writesOf id = [] := by
  rw [List.eq_nil_iff_forall_not_mem]
  intro o hmem
  obtain ⟨hflight, hwrite⟩ := List.mem_filter.mp hmem
  have hticket : o.ticket ∈ σ.host.tickets := h.tickets.mem_iff.mp (List.mem_map_of_mem hflight)
  cases o with
  | read => simp [Operation.isRead] at hwrite
  | write other writer outgoing =>
    have hid : other = id := of_decide_eq_true (Bool.and_eq_true_iff.mp hwrite).1
    subst hid
    rw [Host.tickets, List.mem_append] at hticket
    rcases hticket with hjob | hended
    · obtain ⟨job, hjob, heq⟩ := List.mem_map.mp hjob
      refine hidle.1 job hjob ?_
      have heq : job.ticket = (other, false, writer) := heq
      rw [job.ticket_eq, Prod.mk.injEq, Prod.mk.injEq] at heq
      unfold Job.task
      rw [heq.1, heq.2.1]
      rfl
    · obtain ⟨completion, hended, heq⟩ := List.mem_filterMap.mp hended
      cases completion with
      | registered => cases heq
      | read => cases heq
      | write =>
        cases heq
        exact hidle.2 _ _ hended

/-- Octets that are some frames whole, in their order, and after them part of the next one. -/
def CutFrom (bytes : Bytes) (frames : List ServerFrame) : Prop :=
  ∃ k part, k ≤ frames.length ∧ bytes = wires (frames.take k) ++ part ∧
    part <+: (frames[k]?).elim [] (·.wire)

/-- Wherever the octets of some frames are cut, they are cut within one of them. -/
theorem cutFrom_of_isPrefix {bytes : Bytes} {frames : List ServerFrame}
    (h : bytes <+: wires frames) : CutFrom bytes frames := by
  induction frames generalizing bytes with
  | nil =>
    have hnone : bytes = [] := List.prefix_nil.mp h
    exact ⟨0, [], Nat.le_refl 0, hnone, List.nil_prefix⟩
  | cons frame frames ih =>
    have hsplit : wires (frame :: frames) = frame.wire ++ wires frames := List.flatMap_cons
    rw [hsplit] at h
    rcases Nat.le_total bytes.length frame.wire.length with hshort | hlong
    · have hwithin := List.prefix_of_prefix_length_le h (List.prefix_append _ _) hshort
      exact ⟨0, bytes, Nat.zero_le _, rfl, hwithin⟩
    · obtain ⟨more, rfl⟩ := List.prefix_of_prefix_length_le (List.prefix_append _ _) h hlong
      rw [List.prefix_append_right_inj] at h
      obtain ⟨k, part, hk, rfl, hpart⟩ := ih h
      refine ⟨k + 1, part, Nat.succ_le_succ hk, ?_, hpart⟩
      rw [List.take_succ_cons, ← List.append_assoc]
      rfl

/-- An open connection without a write in flight has begun all that it has accepted. -/
theorem Follows.started_of_idle (h : σ.Follows limit s)
    (hopen : isOpen (s.engine.table.find? id) = true) (hidle : s.writesOf id = []) :
    s.started id = joined (effectsOn id s.effects) := by
  cases hc : s.engine.table.find? id with
  | none =>
    rw [hc] at hopen
    cases hopen
  | some c =>
    rw [hc, isOpen_some, Bool.not_eq_true'] at hopen
    obtain ⟨transport, l, -, hs, hsound, hordered⟩ := h.reached.sound hc
    have hledger := hordered.ledger c rfl hopen
    have hfront := hsound.front hopen
    rw [s.writesOf_eq, hs.inFlight] at hidle
    have hqueue : c.queue.toList = [] := by
      by_contra hbusy
      exact hfront.ne_nil_iff.mpr hbusy hidle
    rw [hledger.order, Connection.frames, hqueue]
    exact (List.append_nil _).symm

/-- The frames whose write has begun are the first of those that were accepted. -/
theorem Follows.started_isPrefix (h : σ.Follows limit s)
    {transport : Transport} (hstream : streamOf? σ.handled id = some transport) :
    s.started id <+: joined (effectsOn id s.effects) :=
  (h.reached.begins hstream).begins

/-- What goes out to the client of a connection. -/
structure Delivers (σ : Scene) (limit : Nat) (id : ConnectionId) (transport : Transport) :
    Prop where
  /-- What has gone out since the stream was let in are the frames that were accepted, in their
  order and each once, cut somewhere. -/
  order : ∃ bytes, σ.sent transport = σ.before transport ++ bytes ∧
    CutFrom bytes (σ.accepted limit id)
  /-- All of them have gone out when the connection is open and writes nothing. -/
  all : isOpen (σ.host.engine.table.find? id) = true → σ.Idle id →
    σ.sent transport = σ.before transport ++ wires (σ.accepted limit id)
  /-- The messages among them are an unbroken stretch of those that were posted. -/
  posted : carriers (σ.accepted limit id) <:+: sendsTo id σ.posted
  /-- No frame is taken and none begun once the connection is closed. -/
  shut : isOpen (σ.host.engine.table.find? id) = false → ∀ moves,
    (σ.run moves).accepted limit id = σ.accepted limit id ∧
      (σ.run moves).started limit id = σ.started limit id

/-- Whatever the settings, the application, the sizes of the pipes and the order of moves: what a
host sends to each of its clients are the frames that it has accepted for the client, in the order
in which it accepted them, without loss, repetition or mixture. -/
theorem delivered (settings : Settings) (application : Application) (address : String)
    (moves : List Move) {id : ConnectionId} {transport : Transport}
    (h : streamOf? ((start settings application address).run moves).handled id = some transport) :
    ((start settings application address).run moves).Delivers settings.payloadLimit id
      transport := by
  obtain ⟨s, hfaithful⟩ := (faithful_start settings application address).run moves
  generalize (start settings application address).run moves = σ at h hfaithful
  have hfollows := hfaithful.follows
  obtain ⟨bytes, hsends⟩ := hfaithful.sends id transport h
  have haccepted := hfollows.accepted_eq id
  have hfirst := hfollows.started_isPrefix h
  exact {
    order := by
      refine ⟨bytes, hsends.sent, ?_⟩
      rw [haccepted]
      obtain ⟨later, hlater⟩ := hfirst
      apply cutFrom_of_isPrefix
      rw [← hlater, wires_append]
      exact hsends.begun.trans (List.prefix_append _ _)
    all := by
      intro hopen hidle
      rw [hfollows.engine] at hopen
      have hnone := hfollows.writesOf_of_idle hidle
      rw [hsends.sent, haccepted, hsends.idle hopen hnone, hfollows.started_of_idle hopen hnone]
    posted := by
      obtain ⟨late, hposted, -⟩ := hfollows.posted
      rw [haccepted, hposted, sendsTo_append]
      exact (hfollows.reached.posting id).within.trans (List.prefix_append _ _).isInfix
    shut := by
      intro hshut more
      rw [hfollows.engine] at hshut
      obtain ⟨s', hs', hstarted, htaken⟩ := hfaithful.shut h hshut more
      rw [hs'.follows.accepted_eq, hs'.follows.started_eq, haccepted, hfollows.started_eq]
      exact ⟨htaken, hstarted⟩ }

/-- A client of a narrow stream has read half of a message when the connection is dropped. -/
theorem delivered_half :
    let moves : List Move := [.connect 4 [], .engine, .request (.send ⟨1⟩ (.text "hello") none),
      .engine, .job (.writer ⟨1⟩), .read 0 (some 2), .request (.drop ⟨1⟩), .engine]
    let σ := (start Settings.standard (fun _ _ _ => ⟨[], none⟩) "").run moves
    streamOf? σ.handled ⟨1⟩ = some 0 ∧ σ.Delivers Settings.standard.payloadLimit ⟨1⟩ 0 ∧
      σ.sent 0 = [129, 5, 104, 101] := by
  intro moves σ
  have hstream : streamOf? σ.handled ⟨1⟩ = some 0 := by
    decide +kernel
  refine ⟨hstream, delivered Settings.standard _ "" moves hstream, ?_⟩
  decide +kernel

end Scene

end WebSocket
