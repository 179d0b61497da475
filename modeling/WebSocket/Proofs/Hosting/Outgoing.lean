import WebSocket.Proofs.Hosting.Following

/-!
# What goes out to a client

What has gone out to the client of a connection since its stream was let in are octets of the frames
whose write has begun, in their order and without gaps (`Scene.Sends`).  Between the octets that are
out and the whole of these frames lies what the write under way has still to put on the stream;
nothing lies between them when that write has gone well, nor when an open connection writes nothing.
-/

namespace WebSocket

/-- The octets of some frames, one frame after another. -/
def wires (frames : List ServerFrame) : Bytes := frames.flatMap (·.wire)

@[simp] theorem wires_append (frames more : List ServerFrame) :
    wires (frames ++ more) = wires frames ++ wires more :=
  List.flatMap_append

theorem wires_isPrefix {frames more : List ServerFrame} (h : frames <+: more) :
    wires frames <+: wires more := by
  obtain ⟨later, rfl⟩ := h
  rw [wires_append]
  exact List.prefix_append _ _

/-- The frames whose write has begun for a connection. -/
def Course.started (s : Course) (id : ConnectionId) : List ServerFrame :=
  framesOf (begun (effectsOn id s.effects))

theorem Course.started_after (s : Course) (id : ConnectionId) (mail : Mail) :
    (s.after mail).started id = s.started id ++ framesOf (s.nextWrites id mail) := by
  show framesOf (begun (effectsOn id (s.effects ++ (s.engine.dispatch mail).2))) = _
  rw [effectsOn_append, begun_append, framesOf_append, nextWrites, framesOf_writes, started]

namespace Scene

/-- How the octets that have gone out to the client of a connection stand to the frames whose write
has begun. -/
structure Sends (σ : Scene) (s : Course) (id : ConnectionId) (transport : Transport)
    (bytes : Bytes) : Prop where
  sent : σ.sent transport = σ.before transport ++ bytes
  begun : bytes <+: wires (s.started id)
  running : ∀ w ∈ σ.host.jobs.filterMap (·.writing?), w.id = id →
    bytes ++ w.unsent = wires (s.started id)
  ended : ∀ writer, .write id writer (.ok ()) ∈ σ.host.completions →
    bytes = wires (s.started id)
  idle : isOpen (s.engine.table.find? id) = true → s.writesOf id = [] →
    bytes = wires (s.started id)

/-! ## Completions of writes -/

theorem not_mem_of_no_tickets {completions : List Completion}
    (h : completions.filterMap (·.ticket?) = []) (id : ConnectionId) (writer : Transport)
    (result : Except Fault Unit) : .write id writer result ∉ completions := by
  intro hmem
  have hticket : (id, false, writer) ∈ completions.filterMap (·.ticket?) :=
    List.mem_filterMap.mpr ⟨_, hmem, rfl⟩
  rw [h] at hticket
  cases hticket

theorem countP_pos_of_completion {completions : List Completion} {id : ConnectionId}
    {writer : Transport} {result : Except Fault Unit}
    (h : .write id writer result ∈ completions) :
    0 < (completions.filterMap (·.ticket?)).countP (Ticket.isOf id false) := by
  rw [List.countP_pos_iff]
  refine ⟨(id, false, writer), List.mem_filterMap.mpr ⟨_, h, rfl⟩, ?_⟩
  simp [Ticket.isOf]

theorem ticket_of_writing {job : Job} {w : Writing} (h : job.writing? = some w) :
    job.ticket = (w.id, false, w.transport) := by
  obtain ⟨operation, unsent, cancelled⟩ := job
  cases operation with
  | read => cases h
  | write =>
    cases h
    rfl

theorem unsent_of_writing {job : Job} {w : Writing} (h : job.writing? = some w) :
    w.unsent = job.unsent := by
  obtain ⟨operation, unsent, cancelled⟩ := job
  cases operation with
  | read => cases h
  | write =>
    cases h
    rfl

/-- What one of some operations writes, or one of the others. -/
theorem mem_writings {earlier later : List Job} {job : Job} {w : Writing} :
    w ∈ (earlier ++ job :: later).filterMap (·.writing?) ↔
      w ∈ (earlier ++ later).filterMap (·.writing?) ∨ job.writing? = some w := by
  simp only [List.mem_filterMap, List.mem_append, List.mem_cons]
  constructor
  · rintro ⟨other, hother | rfl | hother, hwriting⟩
    · exact .inl ⟨other, .inl hother, hwriting⟩
    · exact .inr hwriting
    · exact .inl ⟨other, .inr hother, hwriting⟩
  · rintro (⟨other, hother | hother, hwriting⟩ | hwriting)
    · exact ⟨other, .inl hother, hwriting⟩
    · exact ⟨other, .inr (.inr hother), hwriting⟩
    · exact ⟨job, .inr (.inl rfl), hwriting⟩

theorem countP_pos_of_writing {jobs : List Job} {w : Writing}
    (h : w ∈ jobs.filterMap (·.writing?)) :
    0 < (jobs.map Job.ticket).countP (Ticket.isOf w.id false) := by
  obtain ⟨job, hmem, hwriting⟩ := List.mem_filterMap.mp h
  rw [List.countP_pos_iff]
  refine ⟨job.ticket, List.mem_map_of_mem hmem, ?_⟩
  rw [ticket_of_writing hwriting]
  simp [Ticket.isOf]

namespace Sends

variable {σ : Scene} {host : Host} {limit : Nat} {s : Course} {id : ConnectionId} {bytes : Bytes}

theorem quiet {transport : Nat} (hs : σ.Sends s id transport bytes) (h : σ.Follows limit s)
    (hstream : streamOf? σ.handled id = some transport) (hq : σ.host.Quiet host) :
    (σ.become host).Sends s id transport bytes where
  sent := by
    show σ.taken transport ++ host.outbound transport = σ.before transport ++ bytes
    rw [hq.outbound transport (h.lt_links hstream) (h.not_mem_comers hstream)]
    exact hs.sent
  begun := hs.begun
  running := by
    show ∀ w ∈ host.jobs.filterMap _, _
    rw [hq.writings]
    exact hs.running
  ended := by
    intro writer hmem
    obtain ⟨added, hadded, hnone⟩ := hq.completions
    have hmem : Completion.write id writer (.ok ()) ∈ host.completions := hmem
    rw [hadded, List.mem_append] at hmem
    rcases hmem with hmem | hmem
    · exact hs.ended writer hmem
    · exact absurd hmem (not_mem_of_no_tickets hnone id writer _)
  idle := hs.idle

theorem takes {transport : Nat} (hs : σ.Sends s id transport bytes) {taken : Transport → Bytes}
    (hcore : host.core = { σ.host.core with links := host.links })
    (hsent : ∀ other : Nat, taken other ++ host.outbound other = σ.sent other) :
    { σ with host := host, taken := taken }.Sends s id transport bytes := by
  simp only [Host.core, Host.Core.mk.injEq] at hcore
  obtain ⟨-, -, hcompletions, -, -, hjobs, -, -⟩ := hcore
  exact {
    sent := (hsent transport).trans hs.sent
    begun := hs.begun
    running := by
      show ∀ w ∈ host.jobs.filterMap _, _
      rw [hjobs]
      exact hs.running
    ended := by
      show ∀ writer, _ ∈ host.completions → _
      rw [hcompletions]
      exact hs.ended
    idle := hs.idle }

theorem retires {transport : Nat} (hs : σ.Sends s id transport bytes) (h : σ.Follows limit s)
    (hstream : streamOf? σ.handled id = some transport) (hdone : σ.host.engine.isDone = true) :
    { σ with host := σ.host.retire }.Sends s id transport bytes := by
  have hcloses : { σ with host := σ.host.closed }.Sends s id transport bytes := {
    sent := hs.sent
    begun := hs.begun
    running := hs.running
    ended := nofun
    idle := hs.idle }
  rw [← become_retire]
  exact hcloses.quiet (h.closes hdone) hstream σ.host.unfelt_retire.toQuiet

/-! ## Steps of operations -/

/-- A write under way is the only one of its connection. -/
theorem alone (h : σ.Follows limit s) {earlier later : List Job} {job : Job}
    (hjobs : σ.host.jobs = earlier ++ job :: later) {transport : Transport}
    (hticket : job.ticket = (id, false, transport)) :
    (∀ w ∈ (earlier ++ later).filterMap (·.writing?), w.id ≠ id) ∧
      (∀ writer result, .write id writer result ∉ σ.host.completions) ∧ s.writesOf id ≠ [] := by
  -- Any other write of the connection would be a second ticket of its kind.
  have hone := h.countP_tickets_le id false
  have hmine : Ticket.isOf id false job.ticket = true := by
    rw [hticket]
    simp [Ticket.isOf]
  rw [Host.tickets, hjobs, List.map_append, List.map_cons, List.countP_append, List.countP_append,
    List.countP_cons, if_pos hmine] at hone
  refine ⟨?_, ?_, ?_⟩
  · intro w hmem hid
    have hpos := countP_pos_of_writing hmem
    rw [hid, List.map_append, List.countP_append] at hpos
    omega
  · intro writer result hmem
    have hpos := countP_pos_of_completion hmem
    omega
  · intro hnone
    have hflight : job.ticket ∈ s.inFlight.map Operation.ticket := by
      rw [h.tickets.mem_iff, Host.tickets, hjobs]
      simp
    obtain ⟨o, hmem, heq⟩ := List.mem_map.mp hflight
    rw [hticket] at heq
    have hwrite : o ∈ s.writesOf id := by
      refine List.mem_filter.mpr ⟨hmem, ?_⟩
      cases o with
      | read => cases heq
      | write =>
        cases heq
        simp [Operation.id, Operation.isRead]
    rw [hnone] at hwrite
    cases hwrite

/-- An operation of a connection works on its stream. -/
theorem transport_of_own (h : σ.Follows limit s) {transport : Transport}
    (hstream : streamOf? σ.handled id = some transport) {job : Job} (hmem : job ∈ σ.host.jobs)
    {isRead : Bool} {stream : Transport} (hticket : job.ticket = (id, isRead, stream)) :
    job.transport = transport := by
  rw [job.ticket_eq, Prod.mk.injEq] at hticket
  exact (h.transport_eq_iff hstream hmem).mpr hticket.1

/-- Steps of other operations put nothing on the stream. -/
theorem part_of_other (h : σ.Follows limit s) {transport : Transport}
    (hstream : streamOf? σ.handled id = some transport) {job : Job} (hmem : job ∈ σ.host.jobs)
    {part : Bytes} (hreads : job.isRead = true → part = [])
    (hother : ∀ writer, job.ticket ≠ (id, false, writer)) :
    (if job.transport = transport then part else []) = [] := by
  split
  · rename_i heq
    cases hread : job.isRead with
    | true => exact hreads hread
    | false =>
      have hid := (h.transport_eq_iff hstream hmem).mp heq
      have hticket : job.ticket = (id, false, transport) := by
        rw [job.ticket_eq, hread, heq, hid]
      exact absurd hticket (hother transport)
  · rfl

theorem exists_writing {job : Job} {transport : Transport}
    (h : job.ticket = (id, false, transport)) :
    ∃ frame, job.writing? = some ⟨id, transport, frame, job.unsent⟩ := by
  obtain ⟨operation, unsent, cancelled⟩ := job
  cases operation with
  | read => cases h
  | write =>
    cases h
    exact ⟨_, rfl⟩

theorem sent_advances {transport : Nat} (hs : σ.Sends s id transport bytes) {job : Job}
    {part : Bytes} (ha : σ.host.Advances host job part) :
    (σ.become host).sent transport =
      σ.before transport ++ (bytes ++ if job.transport = transport then part else []) := by
  show σ.taken transport ++ host.outbound transport = _
  rw [ha.outbound transport, ← List.append_assoc, ← List.append_assoc, ← hs.sent]
  rfl

/-- The write of a connection puts octets of its frame on the stream. -/
theorem advances_own {transport : Nat} (hs : σ.Sends s id transport bytes) (h : σ.Follows limit s)
    (hstream : streamOf? σ.handled id = some transport) {job : Job} {part : Bytes}
    (hmem : job ∈ σ.host.jobs) (ha : σ.host.Advances host job part) {writer : Transport}
    (hticket : job.ticket = (id, false, writer)) :
    (σ.become host).Sends s id transport (bytes ++ part) := by
  obtain ⟨frame, hwriting⟩ := exists_writing hticket
  have hrest := hs.running _ (List.mem_filterMap.mpr ⟨job, hmem, hwriting⟩) rfl
  have hsent := hs.sent_advances ha
  rw [if_pos (transport_of_own h hstream hmem hticket)] at hsent
  obtain ⟨outcome, hsteps, hturned⟩ := ha.turned
  cases hturned with
  | @waits earlier later waiting hbefore hafter hsame =>
    obtain ⟨hothers, hnone, hbusy⟩ := alone h hbefore hticket
    cases hsteps with
    | waits hoperation hunsent =>
      rw [hunsent, ← List.append_assoc] at hrest
      exact {
        sent := hsent
        begun := ⟨waiting.unsent, hrest⟩
        running := by
          intro w hw hid
          have hw : w ∈ host.jobs.filterMap (·.writing?) := hw
          rw [hafter, mem_writings] at hw
          rcases hw with hw | hw
          · exact absurd hid (hothers w hw)
          · rw [unsent_of_writing hw]
            exact hrest
        ended := by
          intro other hended
          have hended : Completion.write id other (.ok ()) ∈ host.completions := hended
          rw [hsame] at hended
          exact absurd hended (hnone other _)
        idle := fun _ hidle => absurd hidle hbusy }
  | @ends earlier later completion hbefore hafter hmore =>
    obtain ⟨hothers, hnone, hbusy⟩ := alone h hbefore hticket
    cases hsteps with
    | ends hended hpart hall =>
      obtain ⟨lost, hlost⟩ := hpart
      exact {
        sent := hsent
        begun := ⟨lost, by rw [List.append_assoc, hlost, hrest]⟩
        running := by
          intro w hw hid
          have hw : w ∈ host.jobs.filterMap (·.writing?) := hw
          rw [hafter] at hw
          exact absurd hid (hothers w hw)
        ended := by
          intro other hwrite
          have hwrite : Completion.write id other (.ok ()) ∈ host.completions := hwrite
          rw [hmore, List.mem_append, List.mem_singleton] at hwrite
          rcases hwrite with hwrite | hwrite
          · exact absurd hwrite (hnone other _)
          · rw [hall id other hwrite.symm]
            exact hrest
        idle := fun _ hidle => absurd hidle hbusy }

/-- A step of any other operation is not felt. -/
theorem advances_other {transport : Nat} (hs : σ.Sends s id transport bytes)
    (h : σ.Follows limit s) (hstream : streamOf? σ.handled id = some transport) {job : Job}
    {part : Bytes} (hmem : job ∈ σ.host.jobs) (ha : σ.host.Advances host job part)
    (hother : ∀ writer, job.ticket ≠ (id, false, writer)) :
    (σ.become host).Sends s id transport bytes := by
  have hsent := hs.sent_advances ha
  rw [part_of_other h hstream hmem ha.reads hother, List.append_nil] at hsent
  obtain ⟨outcome, hsteps, hturned⟩ := ha.turned
  cases hturned with
  | @waits earlier later waiting hbefore hafter hsame =>
    cases hsteps with
    | waits hoperation hunsent =>
      exact {
        sent := hsent
        begun := hs.begun
        running := by
          intro w hw hid
          have hw : w ∈ host.jobs.filterMap (·.writing?) := hw
          rw [hafter, mem_writings] at hw
          rcases hw with hw | hw
          · refine hs.running w ?_ hid
            rw [hbefore, mem_writings]
            exact .inl hw
          · have hticket := ticket_of_writing hw
            rw [Job.ticket, hoperation, hid] at hticket
            exact absurd hticket (hother w.transport)
        ended := by
          show ∀ writer, _ ∈ host.completions → _
          rw [hsame]
          exact hs.ended
        idle := hs.idle }
  | @ends earlier later completion hbefore hafter hmore =>
    cases hsteps with
    | ends hended =>
      exact {
        sent := hsent
        begun := hs.begun
        running := by
          intro w hw hid
          have hw : w ∈ host.jobs.filterMap (·.writing?) := hw
          rw [hafter] at hw
          refine hs.running w ?_ hid
          rw [hbefore, mem_writings]
          exact .inl hw
        ended := by
          intro writer hwrite
          have hwrite : Completion.write id writer (.ok ()) ∈ host.completions := hwrite
          rw [hmore, List.mem_append, List.mem_singleton] at hwrite
          rcases hwrite with hwrite | rfl
          · exact hs.ended writer hwrite
          · exact absurd (Option.some.inj hended).symm (hother writer)
        idle := hs.idle }

end Sends

end Scene

end WebSocket
