import WebSocket.Proofs.Hosting.Incoming

/-!
# What clients say

What a client has said since its session began is what was left over of its opening, what its stream
held when it was let in, and what it has put on the stream since then (`Scene.said`).  Nothing of
that is lost or changes places on its way to the engine, whatever the sizes of the pipes are and in
whatever order the tasks take turns:

    said = heard leftover errands ++ host.arriving id transport                     (Scene.said_eq)

What the engine has heard comes first, then what ends of reads bring that it has not handled yet,
and last what the stream still holds.
-/

namespace WebSocket

def Mail.octetsFor (id : ConnectionId) (mail : Mail) : Bytes :=
  (mail.errandFor? id).elim [] (·.octets)

/-- Only the end of a read brings octets, and a request does not. -/
theorem Mail.octetsFor_request (id : ConnectionId) (request : Request) :
    (Mail.request request).octetsFor id = [] := by
  cases request with
  | send other message loan =>
    by_cases h : other = id <;> simp [octetsFor, errandFor?, errand?, h, Errand.octets]
  | drop other =>
    by_cases h : other = id <;> simp [octetsFor, errandFor?, errand?, h, Errand.octets]
  | closeAll => rfl

theorem heard_errandsFor (leftover : ReceiveBuffer) (id : ConnectionId) (mails : List Mail) :
    heard leftover (errandsFor id mails) = leftover.toList ++ mails.flatMap (·.octetsFor id) := by
  rw [heard]
  congr 1
  induction mails with
  | nil => rfl
  | cons mail mails ih =>
    rw [List.flatMap_cons, ← ih]
    cases herrand : mail.errandFor? id <;> simp [errandsFor, Mail.octetsFor, herrand]

def Completion.octetsFor (id : ConnectionId) (completion : Completion) : Bytes :=
  (Mail.completion completion).octetsFor id

/-- A completion that brings octets to a connection bears a ticket of it. -/
theorem Completion.octetsFor_eq_nil {id : ConnectionId} {completion : Completion}
    (h : ∀ isRead transport, completion.ticket? ≠ some (id, isRead, transport)) :
    completion.octetsFor id = [] := by
  cases completion with
  | registered => rfl
  | read other reader input result =>
    have hne : other ≠ id := by
      rintro rfl
      exact h true reader rfl
    simp [octetsFor, Mail.octetsFor, Mail.errandFor?, Mail.errand?, hne]
  | write other writer result =>
    by_cases hid : other = id <;>
      simp [octetsFor, Mail.octetsFor, Mail.errandFor?, Mail.errand?, hid, Errand.octets]

/-- Completions without tickets bring no octets. -/
theorem octetsFor_of_no_tickets {completions : List Completion}
    (h : completions.filterMap (·.ticket?) = []) (id : ConnectionId) :
    completions.flatMap (·.octetsFor id) = [] := by
  rw [List.flatMap_eq_nil_iff]
  intro completion hmem
  refine Completion.octetsFor_eq_nil fun isRead transport hticket => ?_
  rw [List.filterMap_eq_nil_iff] at h
  exact absurd ((h completion hmem).symm.trans hticket) nofun

namespace Host

/-- The octets on their way from a client to its connection: those that ends of reads bring, and
those that the stream holds. -/
def arriving (host : Host) (id : ConnectionId) (transport : Transport) : Bytes :=
  host.completions.flatMap (·.octetsFor id) ++ host.inbound transport

theorem octetsFor_takeMail {host rest : Host} {mail : Mail}
    (h : host.takeMail? = some (mail, rest)) (id : ConnectionId) :
    host.completions.flatMap (·.octetsFor id) =
      mail.octetsFor id ++ rest.completions.flatMap (·.octetsFor id) := by
  unfold takeMail? at h
  split at h
  · rename_i completion later hcompletions
    cases h
    rw [hcompletions, List.flatMap_cons]
    rfl
  · rename_i hcompletions
    obtain ⟨⟨request, later⟩, -, heq⟩ := Option.map_eq_some_iff.mp h
    cases heq
    rw [Mail.octetsFor_request, hcompletions]
    rfl

/-- A completion that is reported comes before what the stream still holds. -/
theorem arriving_complete (host : Host) (hrunning : host.running = true) (completion : Completion)
    (id : ConnectionId) (transport : Transport) :
    (host.complete completion).arriving id transport =
      host.completions.flatMap (·.octetsFor id) ++
        (completion.octetsFor id ++ host.inbound transport) := by
  obtain ⟨more, hmore⟩ := host.exists_complete hrunning completion
  rw [hmore, arriving, List.flatMap_append, List.flatMap_singleton, List.append_assoc]
  rfl

/-- Clients that come add nothing to what is on its way from others. -/
theorem Quiet.arriving {host host' : Host} (h : host.Quiet host') {transport : Transport}
    (hinbound : host'.inbound transport = host.inbound transport) (id : ConnectionId) :
    host'.arriving id transport = host.arriving id transport := by
  obtain ⟨added, hadded, hnone⟩ := h.completions
  rw [Host.arriving, Host.arriving, hadded, List.flatMap_append, octetsFor_of_no_tickets hnone,
    List.append_nil, hinbound]

end Host

/-- What a write of some data puts into a pipe. -/
def Pipe.Written.part (data : Bytes) : Written → Bytes
  | accepted n => data.take n
  | full | broken => []

namespace Host

theorem inbound_wakeAll (host : Host) (tasks : List Task) (transport : Transport) :
    (host.wakeAll tasks).inbound transport = host.inbound transport :=
  (host.performs_wakeAll tasks).inbound transport

theorem inbound_clientWrite_of_ne (host : Host) {client transport : Transport}
    (h : client ≠ transport) (data : Bytes) :
    (host.clientWrite client data).1.inbound transport = host.inbound transport := by
  unfold clientWrite
  split
  · rfl
  · dsimp only
    split
    · rfl
    · rw [inbound_wakeAll, inbound_changeLink_of_ne host _ h]
    · rfl

/-- What a client writes is put behind what its stream holds. -/
theorem inbound_clientWrite (host : Host) (client : Transport) (data : Bytes) :
    (host.clientWrite client data).1.inbound client =
      host.inbound client ++ (host.clientWrite client data).2.part data := by
  cases hlink : host.links[client]? with
  | none =>
    simp only [clientWrite, hlink]
    exact (List.append_nil _).symm
  | some link =>
    simp only [clientWrite, hlink]
    cases hwrite : link.inbound.write data with
    | mk pipe written =>
      cases written with
      | accepted n =>
        cases n with
        | zero => exact (List.append_nil _).symm
        | succ n =>
          simp only [inbound_wakeAll]
          rw [inbound_changeLink_self hlink, inbound_of_link hlink]
          exact (Pipe.write_accepted hwrite).1
      | full => exact (List.append_nil _).symm
      | broken => exact (List.append_nil _).symm

/-- A client that reads takes nothing of what is on its way to the host. -/
theorem inbound_clientRead? {host host' : Host} {client : Transport} {most : Option Nat}
    {data : Bytes} {ended : Bool} (h : host.clientRead? client most = some (host', data, ended))
    (transport : Transport) : host'.inbound transport = host.inbound transport := by
  obtain ⟨link, -, hread⟩ := Option.map_eq_some_iff.mp h
  cases hread
  rw [inbound_wakeAll]
  refine host.inbound_changeLink ?_ client transport
  intro link
  rfl

end Host

/-! ## Reads -/

/-- What a step takes off its stream, the completion brings to the connection of the operation. -/
theorem Job.octets_step (job : Job) (link : Link) :
    ∃ octets, link.inbound.content.toList = octets ++ (job.step link).1.inbound.content.toList ∧
      Sum.elim (fun _ => octets = [])
        (fun completion : Completion =>
          ∀ id, completion.octetsFor id = if job.id = id then octets else []) (job.step link).2 := by
  obtain ⟨operation, unsent, cancelled⟩ := job
  unfold step
  cases operation with
  | read owner reader input =>
    have hbrings (input : ReceiveBuffer) (result : Except Fault Nat) (id : ConnectionId) :
        (Completion.read owner reader input result).octetsFor id =
          if owner = id then (Errand.read reader input result).octets else [] := by
      by_cases hid : owner = id <;>
        simp [Completion.octetsFor, Mail.octetsFor, Mail.errandFor?, Mail.errand?, hid]
    dsimp only
    split
    · exact ⟨[], rfl, hbrings input _⟩
    · split
      · rename_i pipe data hread
        refine ⟨data, (Pipe.read_octets hread).symm, ?_⟩
        have hdata : (Errand.read reader (input.append data) (.ok data.length)).octets = data := by
          rw [Errand.octets, ReceiveBuffer.toList_append, List.length_append, Nat.add_sub_cancel,
            List.drop_left]
        simp only [Sum.elim_inr, hbrings, hdata]
        exact fun _ => rfl
      · refine ⟨[], rfl, ?_⟩
        have hnone : (Errand.read reader input (.ok 0)).octets = [] := List.drop_length
        simp only [Sum.elim_inr, hbrings, hnone]
        exact fun _ => rfl
      · exact ⟨[], rfl, rfl⟩
  | write owner writer outgoing =>
    have hbrings (result : Except Fault Unit) (id : ConnectionId) :
        (Completion.write owner writer result).octetsFor id = if owner = id then [] else [] := by
      by_cases hid : owner = id <;>
        simp [Completion.octetsFor, Mail.octetsFor, Mail.errandFor?, Mail.errand?, hid,
          Errand.octets]
    dsimp only
    split
    · exact ⟨[], rfl, hbrings _⟩
    · split
      · exact ⟨[], rfl, hbrings _⟩
      · exact ⟨[], rfl, rfl⟩
      · split
        · exact ⟨[], rfl, hbrings _⟩
        · exact ⟨[], rfl, rfl⟩

namespace Scene

variable {σ : Scene} {host : Host} {limit : Nat} {s : Course} {id : ConnectionId}
  {transport : Transport} {octets : Bytes}

/-- What a read takes off its stream is still on its way. -/
theorem Follows.arriving_jobTurn (h : σ.Follows limit s)
    (hstream : streamOf? σ.handled id = some transport) (task : Task) :
    (σ.host.jobTurn task).arriving id transport = σ.host.arriving id transport := by
  cases hrunning : σ.host.running with
  | false =>
    -- An engine that has ended has left nothing in flight.
    have hnone := h.tickets_nil (h.finished hrunning)
    rw [Host.tickets, List.append_eq_nil_iff, List.map_eq_nil_iff] at hnone
    simp only [Host.jobTurn, hnone.1, List.find?_nil]
  | true =>
    cases hfind : σ.host.jobs.find? (·.task = task) with
    | none => simp only [Host.jobTurn, hfind]
    | some job =>
      cases hlink : σ.host.links[job.transport]? with
      | none => simp only [Host.jobTurn, hfind, hlink]
      | some link =>
        have hown := h.transport_eq_iff hstream (List.mem_of_find?_eq_some hfind)
        obtain ⟨octets, hoctets, houtcome⟩ := job.octets_step link
        -- Only the connection of the operation is brought something, and from its own stream.
        have hinbound : σ.host.inbound transport = (if job.id = id then octets else []) ++
            (σ.host.changeLink job.transport fun _ => (job.step link).1).inbound transport := by
          by_cases hid : job.id = id
          · obtain rfl := hown.mpr hid
            rw [if_pos hid, Host.inbound_of_link hlink, Host.inbound_changeLink_self hlink, hoctets]
          · rw [if_neg hid, List.nil_append,
              Host.inbound_changeLink_of_ne _ _ fun heq => hid (hown.mp heq)]
        show _ = σ.host.completions.flatMap (·.octetsFor id) ++ σ.host.inbound transport
        rw [hinbound]
        simp only [Host.jobTurn, hfind, hlink]
        generalize job.step link = outcome at houtcome
        obtain ⟨link', waiting | completion⟩ := outcome
        · have hnone : octets = [] := houtcome
          rw [hnone, ite_self, List.nil_append]
          rfl
        · have hbrings : completion.octetsFor id = if job.id = id then octets else [] :=
            houtcome id
          let left : Host :=
            { σ.host.changeLink job.transport fun _ => link' with
              jobs := σ.host.jobs.filter (·.task ≠ task) }
          have hleft : left.running = true := hrunning
          rw [← hbrings]
          exact left.arriving_complete hleft completion id transport

/-- What a piece of mail leaves of the octets on their way. -/
theorem Follows.arriving_handle (h : σ.Follows limit s) {mail : Mail} {rest : Host}
    (ht : σ.host.Takes rest mail) (id : ConnectionId) (transport : Transport) :
    (rest.handle mail).arriving id transport =
      rest.completions.flatMap (·.octetsFor id) ++ σ.host.inbound transport := by
  obtain ⟨added, hadded, hbrings⟩ := (h.performs ht).completions
  have hcompletions : (rest.handle mail).completions = rest.completions ++ added := hadded
  have hinbound : (rest.handle mail).inbound transport = rest.inbound transport :=
    (h.performs ht).inbound transport
  rw [Host.arriving, hcompletions, List.flatMap_append, octetsFor_of_no_tickets hbrings.tickets,
    List.append_nil, hinbound, Host.inbound, ht.links, ← Host.inbound]

/-- No completion that waits brings octets to a connection that is not there. -/
theorem Follows.octetsFor_of_unknown (h : σ.Follows limit s) (hnone : streamOf? σ.handled id = none) :
    σ.host.completions.flatMap (·.octetsFor id) = [] := by
  rw [List.flatMap_eq_nil_iff]
  intro completion hmem
  refine Completion.octetsFor_eq_nil fun isRead transport hticket => ?_
  have hstream := h.stream_of_ticket
    (List.mem_append_right _ (List.mem_filterMap.mpr ⟨completion, hmem, hticket⟩))
  exact absurd (hnone.symm.trans hstream) nofun

/-! ## What is said -/

def nextMail? (σ : Scene) : Option Mail :=
  if σ.host.running && !σ.host.engine.isDone then σ.host.takeMail?.map (·.1) else none

/-- What a client has said when a piece of mail has been handled.  With its session it begins anew:
with what was left over of its opening, and what its stream holds. -/
def saidWith (σ : Scene) (client : Transport) (said : Bytes) : Mail → Bytes
  | .completion (.registered brought _ leftover) =>
    if brought = client then leftover.toList ++ σ.host.inbound client else said
  | _ => said

/-- What a client has said when a further move has been made. -/
def saying (σ : Scene) (client : Transport) (said : Bytes) : Move → Bytes
  | .write writer data =>
    if writer = client then said ++ (σ.host.clientWrite client data).2.part data else said
  | .engine => σ.nextMail?.elim said (σ.saidWith client said)
  | _ => said

/-- What a client has said by the end of some moves, if it had said something before. -/
def said (σ : Scene) (client : Transport) (before : Bytes) : List Move → Bytes
  | [] => before
  | move :: moves => (σ.move move).said client (σ.saying client before move) moves

/-- What a client has said is what its connection has heard, and what is on its way there. -/
def Says (σ : Scene) (id : ConnectionId) (transport : Transport) (octets : Bytes) : Prop :=
  ∀ leftover later, LetIn σ.handled id transport leftover later →
    octets = heard leftover (errandsFor id later) ++ σ.host.arriving id transport

namespace Says

theorem still (hs : σ.Says id transport octets) {σ' : Scene} (hhandled : σ'.handled = σ.handled)
    (harriving : streamOf? σ.handled id = some transport →
      σ'.host.arriving id transport = σ.host.arriving id transport) :
    σ'.Says id transport octets := by
  intro leftover later hin
  rw [hhandled] at hin
  rw [harriving hin.streamOf?_eq]
  exact hs leftover later hin

theorem quiet (hs : σ.Says id transport octets) (hq : σ.host.Quiet host)
    (hinbound : streamOf? σ.handled id = some transport →
      host.inbound transport = σ.host.inbound transport) :
    (σ.become host).Says id transport octets :=
  hs.still rfl fun hstream => hq.arriving (hinbound hstream) id

/-- What clients that come do is not felt on the stream of one that has a session. -/
theorem unfelt (hs : σ.Says id transport octets) (h : σ.Follows limit s)
    (hu : σ.host.Unfelt host) : (σ.become host).Says id transport octets :=
  hs.quiet hu.toQuiet fun hstream =>
    hu.inbound transport (h.lt_links hstream) (h.not_mem_comers hstream)

theorem write (hs : σ.Says id transport octets) (client : Transport) (data : Bytes) :
    (σ.become (σ.host.clientWrite client data).1).Says id transport
      (σ.saying transport octets (.write client data)) := by
  have hq := σ.host.quiet_clientWrite client data
  show Says _ id transport (if client = transport then _ else _)
  split
  · rename_i hown
    subst hown
    intro leftover later hin
    obtain ⟨added, hadded, hnone⟩ := hq.completions
    have hinbound := σ.host.inbound_clientWrite client data
    have harriving : (σ.host.clientWrite client data).1.arriving id client =
        σ.host.arriving id client ++ (σ.host.clientWrite client data).2.part data := by
      rw [Host.arriving, hadded, List.flatMap_append, octetsFor_of_no_tickets hnone,
        List.append_nil, Host.arriving, List.append_assoc]
      exact congrArg _ hinbound
    show _ = _ ++ (σ.host.clientWrite client data).1.arriving id client
    rw [harriving, ← List.append_assoc, ← hs leftover later hin]
  · rename_i hother
    exact hs.quiet hq fun _ => σ.host.inbound_clientWrite_of_ne hother data

theorem read (hs : σ.Says id transport octets) (client : Transport) (most : Option Nat) :
    (σ.clientRead client most).Says id transport octets := by
  unfold clientRead
  cases hread : σ.host.clientRead? client most with
  | none => exact hs
  | some outcome =>
    obtain ⟨host, data, ended⟩ := outcome
    obtain ⟨hcore, -, -⟩ := Host.clientRead?_eq_some hread
    have hcompletions : host.completions = σ.host.completions := congrArg Host.Core.completions hcore
    have hinbound : host.inbound transport = σ.host.inbound transport :=
      Host.inbound_clientRead? hread transport
    refine hs.still rfl fun _ => ?_
    show host.arriving id transport = _
    rw [Host.arriving, hcompletions, hinbound]
    rfl

theorem retires (hs : σ.Says id transport octets) (h : σ.Follows limit s)
    (hdone : σ.host.engine.isDone = true) :
    { σ with host := σ.host.retire }.Says id transport octets := by
  refine hs.still rfl fun hstream => ?_
  have hnone := h.tickets_nil hdone
  rw [Host.tickets, List.append_eq_nil_iff] at hnone
  have hcloses : σ.host.closed.arriving id transport = σ.host.arriving id transport := by
    rw [Host.arriving, Host.arriving, octetsFor_of_no_tickets hnone.2]
    rfl
  have hnot : transport ∉ σ.host.closed.comers := by
    intro hmem
    refine h.not_mem_comers hstream ?_
    rw [Host.comers, show σ.host.closed.completions = [] from rfl, List.filterMap_nil,
      List.append_nil] at hmem
    rw [Host.comers, ← List.append_assoc]
    exact List.mem_append_left _ hmem
  have hretire := σ.host.unfelt_retire
  exact (hretire.arriving (hretire.inbound transport (h.lt_links hstream) hnot) id).trans hcloses

/-- The engine hears what a piece of mail brings; if it brings the stream, the client has said no
more than what was left over and what the stream holds. -/
theorem handles (hs : σ.Says id transport octets) (h : σ.Follows limit s)
    {mail : Mail} {rest : Host} (htake : σ.host.takeMail? = some (mail, rest)) :
    ((σ.take mail rest).become (rest.handle mail)).Says id transport
      (σ.saidWith transport octets mail) := by
  have ht := Host.takes_takeMail htake
  have hcompletions := Host.octetsFor_takeMail htake id
  intro leftover later hin
  show _ = _ ++ (rest.handle mail).arriving id transport
  rcases hin.append with ⟨rfl, hopen, hid, peer, rfl⟩ | ⟨before, rfl, hbefore⟩
  · have hunknown : streamOf? σ.handled id = none := streamOf?_eq_none (by omega)
    rw [h.octetsFor_of_unknown hunknown] at hcompletions
    have hnone := (List.append_eq_nil_iff.mp hcompletions.symm).2
    rw [saidWith, if_pos rfl, h.arriving_handle ht id transport, hnone, List.nil_append,
      show errandsFor id [] = [] from rfl, heard_nil]
  · have hstream := hbefore.streamOf?_eq
    have hsame : σ.saidWith transport octets mail = octets := by
      unfold saidWith
      split
      · rw [if_neg]
        rintro rfl
        exact h.not_mem_comers hstream (ht.mem_comers rfl)
      · rfl
    rw [hsame, hs leftover before hbefore, h.arriving_handle ht id transport,
      Host.arriving, hcompletions, heard_errandsFor, heard_errandsFor, List.flatMap_append,
      List.flatMap_singleton]
    simp only [List.append_assoc]

theorem engine (hs : σ.Says id transport octets) (h : σ.Follows limit s) :
    σ.engineStep.Says id transport (σ.saying transport octets .engine) := by
  unfold engineStep
  simp only [saying, nextMail?]
  cases hrunning : σ.host.running with
  | false => exact hs
  | true =>
    cases hdone : σ.host.engine.isDone with
    | true => exact hs.retires h hdone
    | false =>
      cases htake : σ.host.takeMail? with
      | none => exact hs
      | some taken => exact hs.handles h htake

/-- Whatever a move is, what a client has said is heard or on its way afterwards. -/
theorem move (hs : σ.Says id transport octets) (h : σ.Follows limit s) (m : Move) :
    (σ.move m).Says id transport (σ.saying transport octets m) := by
  cases m with
  | engine => exact hs.engine h
  | job task => exact hs.still rfl fun hstream => h.arriving_jobTurn hstream task
  | opening opened => exact hs.unfelt h (σ.host.unfelt_openingTurn opened)
  | acceptor => exact hs.unfelt h σ.host.unfelt_acceptorTurn
  | request request =>
    have hperforms := σ.host.performs_request request
    exact hs.quiet hperforms.quiet fun _ => hperforms.inbound transport
  | connect capacity leftover =>
    have hperforms := σ.host.performs_connect capacity leftover
    exact hs.quiet hperforms.quiet fun _ => hperforms.inbound transport
  | refuse => exact hs.unfelt h σ.host.unfelt_refuse
  | arrive capacity peer => exact hs.unfelt h (σ.host.unfelt_arrive capacity peer)
  | arriveBroken fault => exact hs.unfelt h (σ.host.unfelt_arriveBroken fault)
  | write client data => exact hs.write client data
  | read client most => exact hs.read client most
  | shutDown client => exact hs.unfelt h (σ.host.unfelt_clientShutDown client)
  | hangUp client => exact hs.unfelt h (σ.host.unfelt_clientHangUp client)
  | other host =>
    exact hs.still rfl fun _ => (σ.host.quiet_dressed host).arriving rfl id

theorem run (hs : σ.Says id transport octets) (h : σ.Truthful limit s) (moves : List Move) :
    (σ.run moves).Says id transport (σ.said transport octets moves) := by
  induction moves generalizing σ s octets with
  | nil => exact hs
  | cons m moves ih =>
    obtain ⟨s', h'⟩ := h.run [m]
    exact ih (hs.move h.faithful.follows m) h'

end Says

/-- Whatever the settings, the application, the sizes of the pipes and the order of moves: what a
client has said is what the engine has heard of it, and then what is on its way to the engine. -/
theorem said_eq (settings : Settings) (application : Application) (address : String)
    (moves : List Move) {id : ConnectionId} {transport : Transport} {leftover : ReceiveBuffer}
    {later : List Mail}
    (h : LetIn ((start settings application address).run moves).handled id transport leftover
      later) :
    (start settings application address).said transport [] moves =
      heard leftover (errandsFor id later) ++
        ((start settings application address).run moves).host.arriving id transport := by
  have hnothing : (start settings application address).Says id transport [] := by
    intro leftover later hin
    exact absurd rfl hin.ne_nil
  exact hnothing.run (truthful_start settings application address) moves leftover later h

end Scene

end WebSocket
