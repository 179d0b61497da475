import WebSocket.Proofs.Hosting.Refinement

/-!
# Moves of hosts that follow courses

Whatever a move is, little can come of it (`Scene.Goes`): clients come, or something is asked of the
engine; the engine handles a piece of mail, or it ends; an operation takes a step; or a client takes
octets from its stream.  The host keeps to its course all the while, and mail takes both one step on
(`Scene.Follows.kept`, `Scene.Follows.handles`).
-/

namespace WebSocket

/-- No connection is there when the engine has nothing left to do. -/
theorem Engine.find?_of_isDone {e : Engine} (h : e.isDone = true) (id : ConnectionId) :
    e.table.find? id = none := by
  rw [Engine.isDone, Bool.and_eq_true, Table.isEmpty, List.isEmpty_iff] at h
  rw [Table.find?, h.2]
  rfl

namespace Host

variable {host host' : Host}

theorem requests_retire (host : Host) : host.retire.requests = .empty :=
  host.unfelt_retire.asks

theorem Quiet.tickets_eq (h : host.Quiet host') : host'.tickets = host.tickets := by
  obtain ⟨added, hadded, hnone⟩ := h.completions
  rw [Host.tickets, Host.tickets, h.tickets, hadded, List.filterMap_append, hnone, List.append_nil]

/-- What a read takes and what it leaves are what the pipe held. -/
theorem readAvailable_append (pipe : Pipe) (most : Option Nat) :
    (pipe.readAvailable most).2.1 ++ (pipe.readAvailable most).1.content.toList =
      pipe.content.toList := by
  cases most with
  | none =>
    show pipe.content.toList ++ (Fifo.empty : Fifo UInt8).toList = _
    rw [Fifo.toList_empty, List.append_nil]
  | some n =>
    show (pipe.content.split n).1 ++ (pipe.content.split n).2.toList = _
    rw [Fifo.split_fst, Fifo.toList_split_snd, List.take_append_drop]

/-- What a client takes from its stream, the stream no longer holds. -/
theorem clientRead?_eq_some {client : Transport} {most : Option Nat} {data : Bytes} {ended : Bool}
    (h : host.clientRead? client most = some (host', data, ended)) :
    host'.core = { host.core with links := host'.links } ∧
      host'.links.length = host.links.length ∧
      ∀ transport : Nat, (if client = transport then data else []) ++ host'.outbound transport =
        host.outbound transport := by
  unfold clientRead? at h
  cases hlink : host.links[client]? with
  | none =>
    rw [hlink] at h
    cases h
  | some link =>
    rw [hlink, Option.map_some, Option.some.injEq, Prod.mk.injEq, Prod.mk.injEq] at h
    obtain ⟨hhost, hdata, -⟩ := h
    let f (other : Link) : Link := { other with outbound := (link.outbound.readAvailable most).1 }
    have hlinks : host'.links = (host.changeLink client f).links := by
      rw [← hhost]
      exact links_wakeAll _ _
    refine ⟨?_, ?_, ?_⟩
    · rw [hlinks, ← hhost]
      exact core_wakeAll _ _
    · rw [hlinks]
      exact host.length_changeLink client f
    · intro transport
      rw [Host.outbound, hlinks, ← hdata]
      show _ ++ (host.changeLink client f).outbound transport = _
      by_cases heq : client = transport
      · subst heq
        rw [if_pos rfl]
        simp only [Host.outbound, changeLink, List.getElem?_modify_eq, hlink]
        exact readAvailable_append link.outbound most
      · rw [if_neg heq, List.nil_append]
        exact host.outbound_changeLink_of_ne f heq

theorem Performs.tickets_perm {effects : List Effect} {frames : ConnectionId → List ServerFrame}
    (h : host.Performs host' effects frames) :
    host'.tickets.Perm (host.tickets ++ (begun effects).map Operation.ticket) := by
  obtain ⟨added, hadded, hbrings⟩ := h.completions
  rw [Host.tickets, Host.tickets, h.tickets, hadded, List.filterMap_append, hbrings.tickets,
    List.append_nil, List.append_assoc, List.append_assoc]
  exact List.perm_append_comm.append_left _

/-- A completion that bears a ticket brings no stream. -/
theorem broughtStream_of_ticket {completion : Completion} {ticket : Ticket}
    (h : completion.ticket? = some ticket) : broughtStream completion = none := by
  cases completion with
  | registered => cases h
  | read => rfl
  | write => rfl

theorem Advances.comers {job : Job} {part : Bytes} (h : host.Advances host' job part) :
    host'.comers = host.comers := by
  obtain ⟨outcome, hsteps, hturned⟩ := h.turned
  rw [Host.comers, Host.comers, h.arrivals, h.attempts]
  cases hturned with
  | waits _ _ hsame => rw [hsame]
  | ends _ _ hmore =>
    cases hsteps with
    | ends hticket =>
      rw [hmore, List.filterMap_append, List.filterMap_cons, broughtStream_of_ticket hticket,
        List.filterMap_nil, List.append_nil]

/-- A step of an operation keeps its ticket. -/
theorem Advances.tickets_perm {job : Job} {part : Bytes} (h : host.Advances host' job part) :
    host'.tickets.Perm host.tickets := by
  obtain ⟨outcome, hsteps, hturned⟩ := h.turned
  cases hturned with
  | waits hbefore hafter hsame =>
    cases hsteps with
    | waits hoperation =>
      rw [Host.tickets, Host.tickets, hbefore, hafter, hsame]
      simp only [List.map_append, List.map_cons, Job.ticket, hoperation]
      exact List.Perm.refl _
  | ends hbefore hafter hmore =>
    cases hsteps with
    | ends hticket =>
      rw [Host.tickets, Host.tickets, hbefore, hafter, hmore]
      simp only [List.map_append, List.map_cons, List.filterMap_append, List.filterMap_cons,
        hticket, List.filterMap_nil, List.append_assoc, List.cons_append]
      refine List.Perm.append_left _ ?_
      exact (List.Perm.append_left _ List.perm_append_comm).trans List.perm_middle

end Host

namespace Scene

variable {σ : Scene} {host : Host}

/-- What may come of a move. -/
inductive Goes (σ : Scene) : Scene → Prop
  /-- Nothing. -/
  | rests : Goes σ σ
  /-- Clients come, or something is asked of the engine. -/
  | quiet {host : Host} : σ.host.Quiet host → Goes σ (σ.become host)
  /-- The engine handles a piece of mail. -/
  | handles {mail : Mail} {rest : Host} : σ.host.running = true → σ.host.Takes rest mail →
      Goes σ ((σ.take mail rest).become (rest.handle mail))
  /-- The engine ends. -/
  | retires : σ.host.running = true → σ.host.engine.isDone = true →
      Goes σ { σ with host := σ.host.retire }
  /-- An operation takes a step. -/
  | advances {host : Host} {job : Job} {part : Bytes} : job ∈ σ.host.jobs →
      σ.host.Advances host job part → Goes σ (σ.become host)
  /-- A client takes octets from its stream. -/
  | takes {host : Host} {taken : Transport → Bytes} :
      host.core = { σ.host.core with links := host.links } →
      host.links.length = σ.host.links.length →
      (∀ transport : Nat, taken transport ++ host.outbound transport = σ.sent transport) →
      Goes σ { σ with host := host, taken := taken }

/-- What was asked of the engine meanwhile. -/
theorem posted_become {more : List Request}
    (h : host.requests.toList = σ.host.requests.toList ++ more) :
    (σ.become host).posted = σ.posted ++ more := by
  show σ.posted ++ host.requests.toList.drop σ.host.requests.toList.length = σ.posted ++ more
  rw [h, List.drop_left]

theorem become_of_requests (h : host.requests.toList = σ.host.requests.toList) :
    σ.become host = { σ with host := host } := by
  have hposted := posted_become (σ := σ) (h.trans (List.append_nil _).symm)
  rw [List.append_nil] at hposted
  show { σ with host := host, posted := (σ.become host).posted } = _
  rw [hposted]

theorem become_self (σ : Scene) : σ.become σ.host = σ := become_of_requests rfl

/-- Nothing more is asked of an engine that ends. -/
theorem become_retire (σ : Scene) :
    { σ with host := σ.host.closed }.become σ.host.retire = { σ with host := σ.host.retire } := by
  apply become_of_requests
  rw [σ.host.requests_retire]
  rfl

theorem goes_clientRead (σ : Scene) (client : Transport) (most : Option Nat) :
    σ.Goes (σ.clientRead client most) := by
  unfold clientRead
  cases hread : σ.host.clientRead? client most with
  | none => exact .rests
  | some outcome =>
    obtain ⟨hcore, hlength, houtbound⟩ := Host.clientRead?_eq_some hread
    refine .takes hcore hlength ?_
    intro transport
    have hsame := houtbound transport
    by_cases heq : client = transport
    · rw [if_pos heq] at hsame
      rw [if_pos heq, List.append_assoc, hsame]
      rfl
    · rw [if_neg heq, List.nil_append] at hsame
      rw [if_neg heq, hsame]
      rfl

namespace Follows

variable {limit : Nat} {s : Course}

/-- Nothing is in flight when the engine has nothing left to do. -/
theorem nothing (h : σ.Follows limit s) (hdone : σ.host.engine.isDone = true) :
    s.inFlight = [] := by
  rw [h.engine] at hdone
  rw [List.eq_nil_iff_forall_not_mem]
  intro o hmem
  have habsent := h.reached.absent (Engine.find?_of_isDone hdone o.id)
  rw [List.filter_eq_nil_iff] at habsent
  exact habsent o hmem (decide_eq_true rfl)

theorem tickets_nil (h : σ.Follows limit s) (hdone : σ.host.engine.isDone = true) :
    σ.host.tickets = [] := by
  have hperm := h.tickets
  rw [h.nothing hdone] at hperm
  exact List.nil_perm.mp hperm

/-- Whatever a move is, little can come of it. -/
theorem goes (h : σ.Follows limit s) (m : Move) : σ.Goes (σ.move m) := by
  cases m with
  | engine =>
    show σ.Goes σ.engineStep
    unfold engineStep
    cases hrunning : σ.host.running with
    | false => exact .rests
    | true =>
      cases hdone : σ.host.engine.isDone with
      | true => exact .retires hrunning hdone
      | false =>
        cases htake : σ.host.takeMail? with
        | none => exact .rests
        | some taken => exact .handles hrunning (Host.takes_takeMail htake)
  | job task =>
    show σ.Goes (σ.become (σ.host.jobTurn task))
    cases hrunning : σ.host.running with
    | false =>
      -- An engine that has ended has left nothing in flight, so no operation could be lost.
      have hnone := h.tickets_nil (h.finished hrunning)
      rw [Host.tickets, List.append_eq_nil_iff, List.map_eq_nil_iff] at hnone
      have hsame : σ.host.jobTurn task = σ.host := by
        simp only [Host.jobTurn, hnone.1, List.find?_nil]
      rw [hsame, become_self]
      exact .rests
    | true =>
      rcases Host.advances_jobTurn hrunning task (h.countP_task_le task) with
        hsame | ⟨job, part, hmem, hadvances⟩
      · rw [hsame, become_self]
        exact .rests
      · exact .advances hmem hadvances
  | opening transport => exact .quiet (σ.host.unfelt_openingTurn transport).toQuiet
  | acceptor => exact .quiet σ.host.unfelt_acceptorTurn.toQuiet
  | request request => exact .quiet (σ.host.performs_request request).quiet
  | connect capacity leftover => exact .quiet (σ.host.performs_connect capacity leftover).quiet
  | refuse => exact .quiet σ.host.unfelt_refuse.toQuiet
  | arrive capacity peer => exact .quiet (σ.host.unfelt_arrive capacity peer).toQuiet
  | arriveBroken fault => exact .quiet (σ.host.unfelt_arriveBroken fault).toQuiet
  | write client data => exact .quiet (σ.host.quiet_clientWrite client data)
  | read client most => exact goes_clientRead σ client most
  | shutDown client => exact .quiet (σ.host.unfelt_clientShutDown client).toQuiet
  | hangUp client => exact .quiet (σ.host.unfelt_clientHangUp client).toQuiet
  | other host => exact .quiet (σ.host.quiet_dressed host)

/-! ### What comes of a move -/

/-- A host keeps to its course while its engine and the tickets of what is in flight stay as they
are, and clients come one by one. -/
theorem kept (h : σ.Follows limit s) (hengine : host.engine = σ.host.engine)
    (hrunning : host.running = σ.host.running)
    (hrequests : ∃ more, host.requests.toList = σ.host.requests.toList ++ more)
    (htickets : host.tickets.Perm σ.host.tickets)
    (hlinks : σ.host.links.length ≤ host.links.length)
    (hcomers : ∀ transport : Nat, host.comers.count transport ≤ σ.host.comers.count transport +
      Host.fresh σ.host.links.length host.links.length transport) :
    (σ.become host).Follows limit s where
  reached := h.reached
  engine := hengine.trans h.engine
  tickets := h.tickets.trans htickets.symm
  streams := by
    intro transport
    have hfresh := Host.fresh_add (Nat.zero_le _) hlinks transport
    have hold := h.streams transport
    have hmore := hcomers transport
    show (admitted σ.handled).count transport + host.comers.count transport ≤
      Host.fresh 0 host.links.length transport
    omega
  posted := by
    obtain ⟨late, hposted, hnone⟩ := h.posted
    obtain ⟨more, hmore⟩ := hrequests
    refine ⟨late, ?_, ?_⟩
    · rw [posted_become hmore, hposted]
      show _ = _ ++ (_ ++ host.requests.toList)
      rw [hmore]
      simp only [List.append_assoc]
      rfl
    · intro hon
      exact hnone (hrunning.symm.trans hon)
  finished := by
    intro hoff
    show host.engine.isDone = true
    rw [hengine]
    exact h.finished (hrunning.symm.trans hoff)

theorem quiet (h : σ.Follows limit s) (hq : σ.host.Quiet host) : (σ.become host).Follows limit s :=
  h.kept hq.engine hq.running hq.requests (List.Perm.of_eq hq.tickets_eq) hq.links hq.comers

theorem advances (h : σ.Follows limit s) {job : Job} {part : Bytes}
    (ha : σ.host.Advances host job part) : (σ.become host).Follows limit s := by
  refine h.kept ha.engine ha.running ⟨[], ?_⟩ ha.tickets_perm (Nat.le_of_eq ha.links.symm) ?_
  · rw [ha.requests, List.append_nil]
  · intro transport
    rw [ha.comers]
    exact Nat.le_add_right ..

theorem takes (h : σ.Follows limit s) {taken : Transport → Bytes}
    (hcore : host.core = { σ.host.core with links := host.links })
    (hlength : host.links.length = σ.host.links.length) :
    { σ with host := host, taken := taken }.Follows limit s := by
  simp only [Host.core, Host.Core.mk.injEq] at hcore
  obtain ⟨hengine, hrunning, hcompletions, hrequests, -, hjobs, hattempts, harrivals⟩ := hcore
  have hkept : (σ.become host).Follows limit s := by
    refine h.kept hengine hrunning ⟨[], ?_⟩ ?_ (Nat.le_of_eq hlength.symm) ?_
    · rw [hrequests, List.append_nil]
    · rw [Host.tickets, hjobs, hcompletions]
      exact List.Perm.refl _
    · intro transport
      rw [Host.comers, harrivals, hattempts, hcompletions]
      exact Nat.le_add_right ..
  rw [become_of_requests (by rw [hrequests])] at hkept
  exact ⟨hkept.reached, hkept.engine, hkept.tickets, hkept.streams, hkept.posted, hkept.finished⟩

/-- What the engine leaves behind has nothing in flight, and comes too late. -/
theorem closes (h : σ.Follows limit s) (hdone : σ.host.engine.isDone = true) :
    { σ with host := σ.host.closed }.Follows limit s where
  reached := h.reached
  engine := h.engine
  tickets := by
    have hnone := h.tickets_nil hdone
    rw [Host.tickets, List.append_eq_nil_iff] at hnone
    show (s.inFlight.map Operation.ticket).Perm (σ.host.jobs.map Job.ticket ++ [])
    rw [hnone.1, h.nothing hdone]
    exact List.Perm.refl _
  streams := by
    intro transport
    have hold := h.streams transport
    rw [Host.count_comers] at hold
    show (admitted σ.handled).count transport + σ.host.closed.comers.count transport ≤
      Host.fresh 0 σ.host.links.length transport
    rw [Host.count_comers]
    show _ + (_ + (_ + 0)) ≤ _
    have hstages : (σ.host.closed.arrivals.filterMap (·.stream?)).count transport =
        (σ.host.arrivals.filterMap (·.stream?)).count transport := rfl
    have hattempts : (σ.host.closed.attempts.map (·.transport)).count transport =
        (σ.host.attempts.map (·.transport)).count transport := rfl
    omega
  posted := by
    obtain ⟨late, hposted, -⟩ := h.posted
    refine ⟨late ++ σ.host.requests.toList, ?_, ?_⟩
    · show σ.posted = requestsOf σ.handled ++ (late ++ σ.host.requests.toList ++
        (Fifo.empty : Fifo Request).toList)
      rw [Fifo.toList_empty, List.append_nil]
      exact hposted
    · intro hrunning
      cases hrunning
  finished _ := hdone

theorem retires (h : σ.Follows limit s) (hdone : σ.host.engine.isDone = true) :
    { σ with host := σ.host.retire }.Follows limit s := by
  rw [← become_retire]
  exact (h.closes hdone).quiet σ.host.unfelt_retire.toQuiet

/-! ### Mail -/

variable {mail : Mail} {rest : Host}

theorem tickets_of_takes (ht : σ.host.Takes rest mail) :
    σ.host.tickets.Perm (mail.ticket?.toList ++ rest.tickets) := by
  obtain ⟨first, hfirst, htickets, -, -⟩ := ht.completions
  rw [Host.tickets, Host.tickets, ht.jobs, hfirst, List.filterMap_append, htickets,
    ← List.append_assoc, ← List.append_assoc]
  exact List.perm_append_comm.append_right _

/-- The host hands on no completion but that of an operation in flight. -/
theorem admits (h : σ.Follows limit s) (ht : σ.host.Takes rest mail) : s.Admits mail := by
  intro id errand herrand hend
  cases hticket : mail.ticket? with
  | none =>
    have hnot := Mail.errand_of_no_ticket hticket herrand
    exact absurd (hnot.symm.trans hend) Bool.false_ne_true
  | some ticket =>
    have hmem : ticket ∈ s.inFlight.map Operation.ticket := by
      rw [(h.tickets.trans (tickets_of_takes ht)).mem_iff, hticket]
      exact List.mem_cons_self
    obtain ⟨o, hflight, heq⟩ := List.mem_map.mp hmem
    refine ⟨o, hflight, ?_⟩
    rw [Mail.ends_of_ticket hticket, heq]
    exact beq_self_eq_true ticket

/-- What the host does with a piece of mail is what the engine does in the course. -/
theorem performs (h : σ.Follows limit s) (ht : σ.host.Takes rest mail) :
    Host.Performs { rest with engine := (s.engine.dispatch mail).1 } (rest.handle mail)
      (s.engine.dispatch mail).2 fun id =>
        rest.application.sends id rest.records.history (told (s.engine.dispatch mail).2) := by
  rw [← h.engine, ← ht.engine]
  exact rest.performs_handle mail

theorem handles (h : σ.Follows limit s) (hrunning : σ.host.running = true)
    (ht : σ.host.Takes rest mail) :
    ((σ.take mail rest).become (rest.handle mail)).Follows limit (s.after mail) := by
  have hperforms := h.performs ht
  obtain ⟨first, hfirst, -, hbrought, -⟩ := ht.completions
  have hstill : (rest.handle mail).running = true :=
    hperforms.running.trans (ht.running.trans hrunning)
  exact {
    reached := h.reached.mail (h.admits ht)
    engine := hperforms.engine
    tickets := by
      have hleft := perm_tickets_eraseP (h.tickets.trans (tickets_of_takes ht))
      refine List.Perm.trans ?_ hperforms.tickets_perm.symm
      show ((s.inFlight.eraseP mail.ends ++ begun (s.engine.dispatch mail).2).map
        Operation.ticket).Perm _
      rw [List.map_append]
      exact hleft.append_right _
    streams := by
      intro transport
      -- The stream that the mail brings is let in or refused; either way it comes no longer.
      have hold := h.streams transport
      have hmore := hperforms.comers transport
      have hfresh := Host.fresh_add (Nat.zero_le _) hperforms.links transport
      have hcomers : σ.host.comers.count transport =
          mail.stream?.toList.count transport + rest.comers.count transport := by
        rw [Host.count_comers, Host.count_comers, hfirst, List.filterMap_append, hbrought,
          List.count_append, ht.arrivals, ht.attempts]
        omega
      have hadmitted : (admitted (σ.handled ++ [mail])).count transport ≤
          (admitted σ.handled).count transport + mail.stream?.toList.count transport := by
        rw [admitted_append, List.count_append]
        split
        · exact Nat.add_le_add_left (Nat.zero_le _) _
        · exact Nat.le_refl _
      show (admitted (σ.handled ++ [mail])).count transport +
        (rest.handle mail).comers.count transport ≤
          Host.fresh 0 (rest.handle mail).links.length transport
      have hmid : Host.comers { rest with engine := (s.engine.dispatch mail).1 } = rest.comers := rfl
      rw [hmid] at hmore
      simp only [ht.links] at hfresh hmore
      omega
    posted := by
      obtain ⟨late, hposted, hnone⟩ := h.posted
      obtain ⟨more, hmore, -⟩ := hperforms.requests
      refine ⟨[], ?_, fun _ => rfl⟩
      rw [posted_become hmore]
      show σ.posted ++ more = requestsOf (σ.handled ++ [mail]) ++ (rest.handle mail).requests.toList
      rw [hposted, hnone hrunning, ht.requests, hmore, requestsOf_append, requestsOf_singleton]
      simp only [List.nil_append, List.append_assoc]
    finished := by
      intro hover
      exact absurd (hstill.symm.trans hover) (by decide) }

end Follows

end Scene

end WebSocket
