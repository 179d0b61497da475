import WebSocket.Proofs.Hosting.Advance
import WebSocket.Proofs.Hosting.Telling

/-!
# Hosts follow courses

The engine of a host, in whatever order its tasks take turns, is the engine of a course: that of the
mail that it has handled.  The operations in flight are those under way and those whose completion
waits, and every stream is let in once (`Scene.Follows`).
-/

namespace WebSocket

/-! ## Tickets -/

def Ticket.isOf (id : ConnectionId) (isRead : Bool) (ticket : Ticket) : Bool :=
  decide (ticket.1 = id) && ticket.2.1 == isRead

def Mail.ticket? : Mail → Option Ticket
  | completion c => c.ticket?
  | request _ => none

theorem Mail.ends_of_ticket {mail : Mail} {ticket : Ticket} (h : mail.ticket? = some ticket)
    (operation : Operation) : mail.ends operation = (operation.ticket == ticket) := by
  cases mail with
  | request request => cases h
  | completion completion =>
    cases completion with
    | registered transport peer leftover => cases h
    | read id reader input result =>
      cases h
      rw [Mail.ends_of_errand (rfl : Mail.errand? _ = some (id, .read reader input result))]
      cases operation with
      | read other taken held =>
        rw [Bool.eq_iff_iff]
        simp [Errand.ends, Operation.id, Operation.ticket, and_comm, eq_comm (a := reader)]
      | write other taken outgoing => simp [Errand.ends, Operation.ticket]
    | write id writer result =>
      cases h
      rw [Mail.ends_of_errand (rfl : Mail.errand? _ = some (id, .write writer result))]
      cases operation with
      | read other taken held => simp [Errand.ends, Operation.ticket]
      | write other taken outgoing =>
        rw [Bool.eq_iff_iff]
        simp [Errand.ends, Operation.id, Operation.ticket, and_comm, eq_comm (a := writer)]

/-- Only a completion that bears a ticket is the end of an operation. -/
theorem Mail.errand_of_no_ticket {mail : Mail} (h : mail.ticket? = none) {id : ConnectionId}
    {errand : Errand} (herrand : mail.errand? = some (id, errand)) : errand.isEnd = false := by
  cases mail with
  | request request => cases request <;> cases herrand <;> rfl
  | completion completion => cases completion <;> cases herrand <;> cases h

theorem Mail.ends_of_no_ticket {mail : Mail} (h : mail.ticket? = none) (operation : Operation) :
    mail.ends operation = false := by
  by_contra hends
  rw [Bool.not_eq_false, Mail.ends, Option.any_eq_true] at hends
  obtain ⟨errand, herrand, hends⟩ := hends
  rcases mail.kinds with ⟨transport, peer, leftover, rfl⟩ | rfl | ⟨other, errand', hmail⟩
  · cases herrand
  · cases herrand
    cases hends
  · rw [mail.errandFor?_of_errand hmail] at herrand
    split at herrand
    · cases herrand
      have hend := Mail.errand_of_no_ticket h hmail
      cases errand <;> cases hend <;> cases hends
    · cases herrand

/-- The tickets of what is still in flight when a piece of mail has come. -/
theorem perm_tickets_eraseP {operations : List Operation} {tickets : List Ticket} {mail : Mail}
    (h : (operations.map Operation.ticket).Perm (mail.ticket?.toList ++ tickets)) :
    ((operations.eraseP mail.ends).map Operation.ticket).Perm tickets := by
  cases hticket : mail.ticket? with
  | none =>
    have hnone : operations.eraseP mail.ends = operations := by
      apply List.eraseP_of_forall_not
      intro o _
      rw [Mail.ends_of_no_ticket hticket]
      exact Bool.false_ne_true
    rw [hticket] at h
    rw [hnone]
    exact h
  | some ticket =>
    rw [hticket] at h
    have hsame : (operations.eraseP mail.ends).map Operation.ticket =
        (operations.map Operation.ticket).erase ticket := by
      rw [funext (Mail.ends_of_ticket hticket), List.erase_eq_eraseP', List.eraseP_map]
      rfl
    rw [hsame]
    have hfirst : (ticket :: tickets).erase ticket = tickets := List.erase_cons_head ..
    rw [← hfirst]
    exact h.erase ticket

namespace Host

/-- The tickets of all operations in flight: those under way, and those whose completion waits. -/
def tickets (host : Host) : List Ticket :=
  host.jobs.map Job.ticket ++ host.completions.filterMap (·.ticket?)

/-- From a host to the same one without the first piece of its mail. -/
structure Takes (host rest : Host) (mail : Mail) : Prop where
  engine : rest.engine = host.engine
  running : rest.running = host.running
  jobs : rest.jobs = host.jobs
  links : rest.links = host.links
  attempts : rest.attempts = host.attempts
  arrivals : rest.arrivals = host.arrivals
  completions : ∃ first, host.completions = first ++ rest.completions ∧
    first.filterMap (·.ticket?) = mail.ticket?.toList ∧
    first.filterMap broughtStream = mail.stream?.toList ∧
    ∀ completion, mail = .completion completion → completion ∈ first
  requests : host.requests.toList = mail.request?.toList ++ rest.requests.toList

theorem takes_takeMail {host rest : Host} {mail : Mail}
    (h : host.takeMail? = some (mail, rest)) : host.Takes rest mail := by
  unfold takeMail? at h
  split at h
  · rename_i completion later hcompletions
    cases h
    exact {
      engine := rfl
      running := rfl
      jobs := rfl
      links := rfl
      attempts := rfl
      arrivals := rfl
      completions := by
        refine ⟨[completion], hcompletions, ?_, ?_, ?_⟩
        · cases completion <;> rfl
        · cases completion <;> rfl
        · intro other hother
          cases hother
          exact List.mem_singleton_self _
      requests := rfl }
  · cases hpop : host.requests.pop? with
    | none =>
      rw [hpop] at h
      cases h
    | some popped =>
      obtain ⟨request, later⟩ := popped
      rw [hpop] at h
      cases h
      exact {
        engine := rfl
        running := rfl
        jobs := rfl
        links := rfl
        attempts := rfl
        arrivals := rfl
        completions := ⟨[], rfl, rfl, rfl, nofun⟩
        requests := Fifo.toList_of_pop? hpop }

/-- The stream that a piece of mail brings has been on its way. -/
theorem Takes.mem_comers {host rest : Host} {mail : Mail} (h : host.Takes rest mail)
    {transport : Transport} (hbrings : mail.stream? = some transport) :
    transport ∈ host.comers := by
  obtain ⟨first, hfirst, -, hbrought, -⟩ := h.completions
  refine List.mem_append_right _ (List.mem_append_right _ ?_)
  rw [hfirst, List.filterMap_append, hbrought, hbrings]
  exact List.mem_cons_self

end Host

/-! ## Operations in flight -/

namespace Reached

variable {limit : Nat} {mails : List Mail} {s : Course} {id : ConnectionId}

/-- One read and one write are in flight for a connection at most. -/
theorem countP_tickets_le (h : Reached limit mails s) (id : ConnectionId) (isRead : Bool) :
    (s.inFlight.map Operation.ticket).countP (Ticket.isOf id isRead) ≤ 1 := by
  obtain ⟨hreads, hwrites⟩ := h.single id
  rw [List.countP_map, List.countP_eq_length_filter]
  cases isRead with
  | true =>
    have hsame : Ticket.isOf id true ∘ Operation.ticket =
        fun o => decide (o.id = id) && o.isRead := by
      funext o
      cases o <;> rfl
    rw [hsame]
    exact hreads
  | false =>
    have hsame : Ticket.isOf id false ∘ Operation.ticket =
        fun o => decide (o.id = id) && !o.isRead := by
      funext o
      cases o <;> rfl
    rw [hsame]
    exact hwrites

/-- An operation in flight has a half of the stream of its connection. -/
theorem stream_of_ticket (h : Reached limit mails s) {isRead : Bool} {transport : Transport}
    (hmem : (id, isRead, transport) ∈ s.inFlight.map Operation.ticket) :
    streamOf? mails id = some transport := by
  obtain ⟨o, hflight, hticket⟩ := List.mem_map.mp hmem
  cases hc : s.engine.table.find? id with
  | none =>
    have hnone := h.absent hc
    have hid : o.id = id := by
      cases o <;> cases hticket <;> rfl
    rw [List.filter_eq_nil_iff] at hnone
    exact absurd (decide_eq_true hid) (hnone o hflight)
  | some c =>
    obtain ⟨stream, l, hstream, hs, hsound, -⟩ := h.sound hc
    rw [hstream]
    have hmine (hid : o.id = id) : o ∈ l.inFlight := by
      rw [← hs.inFlight]
      exact List.mem_filter.mpr ⟨hflight, decide_eq_true hid⟩
    cases o with
    | read other reader input =>
      cases hticket
      have hread : .read id transport input ∈ reads l.inFlight :=
        List.mem_filter.mpr ⟨hmine rfl, rfl⟩
      obtain ⟨-, -, held, hone⟩ := hsound.reader.of_mem hread
      rw [hone, List.mem_singleton] at hread
      cases hread
      rfl
    | write other writer outgoing =>
      cases hticket
      have hwrite : .write id transport outgoing ∈ writes l.inFlight :=
        List.mem_filter.mpr ⟨hmine rfl, rfl⟩
      obtain ⟨-, -, held, hone⟩ := hsound.writer.of_mem hwrite
      rw [hone, List.mem_singleton] at hwrite
      cases hwrite
      rfl

end Reached

theorem mem_admitted {mails : List Mail} {id : ConnectionId} {transport : Transport}
    (h : streamOf? mails id = some transport) : transport ∈ admitted mails := by
  unfold streamOf? at h
  split at h
  · cases h
  · exact List.mem_of_getElem? h

/-- A stream that is let in once is let in under one number. -/
theorem streamOf?_inj {mails : List Mail} (hone : (admitted mails).Nodup)
    {id other : ConnectionId} {transport : Transport} (h : streamOf? mails id = some transport)
    (h' : streamOf? mails other = some transport) : id = other := by
  obtain ⟨n⟩ := id
  obtain ⟨m⟩ := other
  unfold streamOf? at h h'
  split at h
  · cases h
  · split at h'
    · cases h'
    · rename_i hn hm
      obtain ⟨hlt, -⟩ := List.getElem?_eq_some_iff.mp h
      have hsame := (List.getElem?_inj hlt hone).mp (h.trans h'.symm)
      have heq : n = m := by
        show n = m
        simp only at hn hm hsame
        omega
      rw [heq]

/-! ## Scenes that follow courses -/

namespace Scene

/-- The host of a scene has come as far as its engine in a course. -/
structure Follows (σ : Scene) (limit : Nat) (s : Course) : Prop where
  reached : Reached limit σ.handled s
  engine : σ.host.engine = s.engine
  tickets : (s.inFlight.map Operation.ticket).Perm σ.host.tickets
  /-- A stream comes, or it has been let in, once. -/
  streams : ∀ transport : Nat, (admitted σ.handled).count transport +
    σ.host.comers.count transport ≤ Host.fresh 0 σ.host.links.length transport
  /-- What was asked of the engine has been handled or waits, apart from what came too late. -/
  posted : ∃ late, σ.posted = requestsOf σ.handled ++ (late ++ σ.host.requests.toList) ∧
    (σ.host.running = true → late = [])
  finished : σ.host.running = false → σ.host.engine.isDone = true

namespace Follows

variable {σ : Scene} {limit : Nat} {s : Course} {id : ConnectionId}

theorem count_le_one (h : σ.Follows limit s) (transport : Nat) :
    (admitted σ.handled).count transport + σ.host.comers.count transport ≤ 1 := by
  have hle := h.streams transport
  unfold Host.fresh at hle
  split at hle <;> omega

theorem nodup (h : σ.Follows limit s) : (admitted σ.handled).Nodup := by
  rw [List.nodup_iff_count]
  intro transport
  have hle := h.count_le_one transport
  omega

/-- A stream that has been let in is none of those that come. -/
theorem not_mem_comers (h : σ.Follows limit s) {transport : Nat}
    (hstream : streamOf? σ.handled id = some transport) : transport ∉ σ.host.comers := by
  intro hmem
  have hle := h.count_le_one transport
  have hin := List.count_pos_iff.mpr (mem_admitted hstream)
  have hcomer := List.count_pos_iff.mpr hmem
  omega

theorem lt_of_count_pos (h : σ.Follows limit s) {transport : Nat}
    (hpos : 0 < (admitted σ.handled).count transport + σ.host.comers.count transport) :
    transport < σ.host.links.length := by
  have hle := h.streams transport
  unfold Host.fresh at hle
  split at hle <;> omega

theorem lt_links (h : σ.Follows limit s) {transport : Nat}
    (hstream : streamOf? σ.handled id = some transport) : transport < σ.host.links.length := by
  have hpos := List.count_pos_iff.mpr (mem_admitted hstream)
  exact h.lt_of_count_pos (by omega)

/-- One read and one write are in flight for a connection at most. -/
theorem countP_tickets_le (h : σ.Follows limit s) (id : ConnectionId) (isRead : Bool) :
    σ.host.tickets.countP (Ticket.isOf id isRead) ≤ 1 := by
  rw [← h.tickets.countP_eq]
  exact h.reached.countP_tickets_le id isRead

theorem stream_of_ticket (h : σ.Follows limit s) {isRead : Bool} {transport : Transport}
    (hmem : (id, isRead, transport) ∈ σ.host.tickets) :
    streamOf? σ.handled id = some transport :=
  h.reached.stream_of_ticket (h.tickets.mem_iff.mpr hmem)

/-- An operation under way has the stream of its connection. -/
theorem stream_of_job (h : σ.Follows limit s) {job : Job} (hmem : job ∈ σ.host.jobs) :
    streamOf? σ.handled job.id = some job.transport := by
  have hticket : (job.id, job.isRead, job.transport) ∈ σ.host.tickets := by
    rw [← job.ticket_eq]
    exact List.mem_append_left _ (List.mem_map_of_mem hmem)
  exact h.stream_of_ticket hticket

/-- The operations of a connection are those on its stream. -/
theorem transport_eq_iff (h : σ.Follows limit s) {transport : Transport}
    (hstream : streamOf? σ.handled id = some transport) {job : Job} (hmem : job ∈ σ.host.jobs) :
    job.transport = transport ↔ job.id = id := by
  have hjob := h.stream_of_job hmem
  constructor
  · rintro rfl
    exact streamOf?_inj h.nodup hjob hstream
  · rintro rfl
    exact Option.some.inj (hjob.symm.trans hstream)

/-- A task has one operation at most. -/
theorem countP_task_le (h : σ.Follows limit s) (task : Task) :
    σ.host.jobs.countP (·.task = task) ≤ 1 := by
  have hle (id : ConnectionId) (isRead : Bool) :
      σ.host.jobs.countP (fun job => Ticket.isOf id isRead job.ticket) ≤ 1 := by
    have hall := h.countP_tickets_le id isRead
    rw [Host.tickets, List.countP_append, List.countP_map] at hall
    exact Nat.le_trans (Nat.le_add_right _ _) hall
  cases task with
  | reader id =>
    refine Nat.le_trans (List.countP_mono_left fun job _ htask => ?_) (hle id true)
    rw [job.ticket_eq]
    unfold Job.task at htask
    cases hread : job.isRead <;> simp [hread, Ticket.isOf] at htask ⊢
    exact htask
  | writer id =>
    refine Nat.le_trans (List.countP_mono_left fun job _ htask => ?_) (hle id false)
    rw [job.ticket_eq]
    unfold Job.task at htask
    cases hread : job.isRead <;> simp [hread, Ticket.isOf] at htask ⊢
    exact htask
  | engine | clients | acceptor | opening =>
    refine Nat.le_trans (Nat.le_of_eq (List.countP_eq_zero.mpr fun job _ htask => ?_))
      (Nat.zero_le 1)
    unfold Job.task at htask
    cases hread : job.isRead <;> simp [hread] at htask

end Follows

end Scene

end WebSocket
