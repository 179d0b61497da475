import WebSocket.Proofs.Hosting.Additions

/-!
# Carrying out effects

While a host carries out effects its application may post requests and bring in streams, but it
cannot touch the engine, the operations in flight, what is on its way on the streams or the line of
those who wait for a turn.  So whatever the application does, the effects alone settle what it is
told, what is recorded and which operations are in flight afterwards, and the events that it is told
of settle what it asks for (`Host.performs_all`).
-/

namespace WebSocket

/-- What the application is told in the course of some effects, and of which connections. -/
def told (effects : List Effect) : List (ConnectionId × Event) :=
  effects.filterMap fun
    | .deliver id event => some (id, event)
    | _ => none

theorem told_append (effects more : List Effect) :
    told (effects ++ more) = told effects ++ told more :=
  List.filterMap_append ..

/-- What the application is told of one connection. -/
theorem filter_told (id : ConnectionId) (effects : List Effect) :
    ((told effects).filter (·.1 = id)).map (·.2) = delivered (effectsOn id effects) := by
  induction effects with
  | nil => rfl
  | cons effect effects ih =>
    have hsplit := effectsOn_append id [effect] effects
    rw [List.singleton_append] at hsplit
    rw [hsplit, delivered_append, ← ih]
    cases effect with
    | deliver other event =>
      by_cases h : other = id <;> simp [told, effectsOn, delivered, Effect.owner?, h]
    | start operation =>
      by_cases h : operation.id = id <;> simp [told, effectsOn, delivered, Effect.owner?, h]
    | queued other frame =>
      by_cases h : other = id <;> simp [told, effectsOn, delivered, Effect.owner?, h]
    | cancel other =>
      by_cases h : other = id <;> simp [told, effectsOn, delivered, Effect.owner?, h]
    | release | count | report => simp [told, effectsOn, delivered, Effect.owner?]

theorem Confined.told_eq {id : ConnectionId} {effects : List Effect} (h : Confined id effects) :
    told effects = (delivered effects).map fun event => (id, event) := by
  rw [told, delivered, List.map_filterMap]
  refine List.filterMap_congr fun effect hmem => ?_
  cases effect with
  | deliver other event =>
    obtain rfl : other = id := h _ hmem
    rfl
  | _ => rfl

theorem told_eq_nil {effects : List Effect} (h : ∀ id, delivered (effectsOn id effects) = []) :
    told effects = [] := by
  rw [List.eq_nil_iff_forall_not_mem]
  rintro ⟨id, event⟩ hmem
  have hof : event ∈ ((told effects).filter (·.1 = id)).map (·.2) :=
    List.mem_map.mpr ⟨_, List.mem_filter.mpr ⟨hmem, decide_eq_true rfl⟩, rfl⟩
  rw [filter_told, h id] at hof
  cases hof

/-- The frames that an application sends to a connection when it is told of some events, after what
it was told before. -/
def Application.sends (application : Application) (id : ConnectionId)
    (history : List (ConnectionId × Event)) : List (ConnectionId × Event) → List ServerFrame
  | [] => []
  | (other, event) :: later =>
    (application history other event).posts.filterMap (·.frameTo? id event) ++
      application.sends id ((other, event) :: history) later

theorem Application.sends_append (application : Application) (id : ConnectionId)
    (history events more : List (ConnectionId × Event)) :
    application.sends id history (events ++ more) =
      application.sends id history events ++
        application.sends id (events.reverse ++ history) more := by
  induction events generalizing history with
  | nil => rfl
  | cons first events ih =>
    rw [List.cons_append, sends, sends, ih, List.append_assoc, List.reverse_cons,
      List.append_assoc]
    rfl

namespace Host

/-- From one state of a host to another in which nothing has changed for the tasks that let clients
in, and no task has lost its place in the line. -/
structure SameLine (host host' : Host) : Prop where
  settings : host'.settings = host.settings
  shutdown : host'.shutdown = host.shutdown
  acceptor : host'.acceptor = host.acceptor
  current : host'.current = host.current
  cleared : host'.cleared = host.cleared
  /-- Only the clients may lose their place. -/
  ready : ∀ task, task ≠ .clients → task ∈ host.ready → task ∈ host'.ready

namespace SameLine

variable {host host' host'' : Host}

theorem refl (host : Host) : host.SameLine host :=
  ⟨rfl, rfl, rfl, rfl, rfl, fun _ _ h => h⟩

theorem trans (h : host.SameLine host') (h' : host'.SameLine host'') : host.SameLine host'' where
  settings := h'.settings.trans h.settings
  shutdown := h'.shutdown.trans h.shutdown
  acceptor := h'.acceptor.trans h.acceptor
  current := h'.current.trans h.current
  cleared := h'.cleared.trans h.cleared
  ready task hother hmem := h'.ready task hother (h.ready task hother hmem)

end SameLine

/-- From one state of a host to another by effects that the host carries out; `frames` are those that
are sent to connections meanwhile. -/
structure Performs (host host' : Host) (effects : List Effect)
    (frames : ConnectionId → List ServerFrame) : Prop extends host.SameLine host' where
  engine : host'.engine = host.engine
  running : host'.running = host.running
  application : host'.application = host.application
  attempts : host'.attempts = host.attempts
  arrivals : host'.arrivals = host.arrivals
  records : host'.records = effects.foldl (Records.after host.application) host.records
  requests : ∃ posted, host'.requests.toList = host.requests.toList ++ posted ∧
    (host.running = true → ∀ id, sendsTo id posted = frames id)
  completions : ∃ added, host'.completions = host.completions ++ added ∧
    Brings added host.links.length host'.links.length
  tickets : host'.jobs.map Job.ticket =
    host.jobs.map Job.ticket ++ (begun effects).map Operation.ticket
  writings : host'.jobs.filterMap Job.writing? =
    host.jobs.filterMap Job.writing? ++ (begun effects).filterMap Operation.writing?
  readings : host'.jobs.filterMap Job.reading? =
    host.jobs.filterMap Job.reading? ++ (begun effects).filterMap Operation.reading?
  links : host.links.length ≤ host'.links.length
  inbound : ∀ transport, host'.inbound transport = host.inbound transport
  outbound : ∀ transport, host'.outbound transport = host.outbound transport

theorem history_foldl_after (application : Application) (r : Records) (effects : List Effect) :
    (effects.foldl (Records.after application) r).history =
      (told effects).reverse ++ r.history := by
  induction effects generalizing r with
  | nil => rfl
  | cons effect effects ih =>
    have hfirst : (r.after application effect).history = (told [effect]).reverse ++ r.history := by
      cases effect with
      | deliver id event =>
        simp only [Records.after]
        split <;> rfl
      | queued | start | cancel | release | count | report => rfl
    rw [List.foldl_cons, ih, hfirst, ← List.append_assoc, ← List.reverse_append, ← told_append]
    rfl

namespace Performs

variable {host host' host'' : Host} {effects later : List Effect}
  {frames more : ConnectionId → List ServerFrame}

theorem history (h : host.Performs host' effects frames) :
    host'.records.history = (told effects).reverse ++ host.records.history := by
  rw [h.records, history_foldl_after]

theorem trans (h : host.Performs host' effects frames) (h' : host'.Performs host'' later more) :
    host.Performs host'' (effects ++ later) fun id => frames id ++ more id where
  toSameLine := h.toSameLine.trans h'.toSameLine
  engine := h'.engine.trans h.engine
  running := h'.running.trans h.running
  application := h'.application.trans h.application
  attempts := h'.attempts.trans h.attempts
  arrivals := h'.arrivals.trans h.arrivals
  records := by rw [h'.records, h.records, h.application, List.foldl_append]
  requests := by
    obtain ⟨posted, hposted, hframes⟩ := h.requests
    obtain ⟨late, hlate, hmore⟩ := h'.requests
    refine ⟨posted ++ late, by rw [hlate, hposted, List.append_assoc], fun hrunning id => ?_⟩
    rw [sendsTo_append, hframes hrunning, hmore (h.running.trans hrunning)]
  completions := by
    obtain ⟨added, hadded, hbrings⟩ := h.completions
    obtain ⟨late, hlate, hbrings'⟩ := h'.completions
    exact ⟨added ++ late, by rw [hlate, hadded, List.append_assoc],
      hbrings.append hbrings' h.links h'.links⟩
  tickets := by
    rw [h'.tickets, h.tickets, begun_append, List.map_append, List.append_assoc]
  writings := by
    rw [h'.writings, h.writings, begun_append, List.filterMap_append, List.append_assoc]
  readings := by
    rw [h'.readings, h.readings, begun_append, List.filterMap_append, List.append_assoc]
  links := Nat.le_trans h.links h'.links
  inbound transport := (h'.inbound transport).trans (h.inbound transport)
  outbound transport := (h'.outbound transport).trans (h.outbound transport)

/-- An addition, with what is recorded of some effects that begin no operation. -/
theorem of_adding {a : Addition} {records : Records} (hfits : a.Fits host.links.length)
    (hframes : host.running = true → ∀ id, sendsTo id a.requests = frames id)
    (hrecords : records = effects.foldl (Records.after host.application) host.records)
    (hbegun : begun effects = []) :
    host.Performs ((host.adding a).recast host.application records) effects frames where
  settings := rfl
  shutdown := rfl
  acceptor := rfl
  current := rfl
  cleared := rfl
  ready _ _ hmem := List.mem_append_left _ hmem
  engine := rfl
  running := rfl
  application := rfl
  attempts := rfl
  arrivals := rfl
  records := hrecords
  requests := ⟨a.requests, host.requests.toList_foldl_push a.requests, hframes⟩
  completions := by
    have hbrings := hfits.brings
    rw [← List.length_append] at hbrings
    exact ⟨a.completions, rfl, hbrings⟩
  tickets := by rw [hbegun, List.map_nil, List.append_nil]; rfl
  writings := by rw [hbegun, List.filterMap_nil, List.append_nil]; rfl
  readings := by rw [hbegun, List.filterMap_nil, List.append_nil]; rfl
  links := by
    show _ ≤ (host.links ++ a.links).length
    rw [List.length_append]
    exact Nat.le_add_right ..
  inbound := elim_append fun link hmem => (hfits.silent link hmem).1
  outbound := elim_append fun link hmem => (hfits.silent link hmem).2

/-- What only records does nothing else. -/
theorem of_records {records : Records}
    (hrecords : records = effects.foldl (Records.after host.application) host.records)
    (hbegun : begun effects = []) :
    host.Performs { host with records := records } effects fun _ => [] := by
  have hnothing : host.adding ⟨[], [], [], []⟩ = host := by
    rw [adding_ready, List.append_nil]
  have hadds : host.Performs ((host.adding ⟨[], [], [], []⟩).recast host.application records) effects
      fun _ => [] := of_adding (Addition.fits_requests _ _ _) (fun _ _ => rfl) hrecords hbegun
  rwa [hnothing] at hadds

theorem refl (host : Host) : host.Performs host [] fun _ => [] := of_records rfl rfl

/-- Effects that the application is not told of may change the operations in flight, and let tasks
go on. -/
theorem of_jobs {jobs : List Job} {ready : List Task}
    (hrecords : effects.foldl (Records.after host.application) host.records = host.records)
    (htickets : jobs.map Job.ticket =
      host.jobs.map Job.ticket ++ (begun effects).map Operation.ticket)
    (hwritings : jobs.filterMap Job.writing? =
      host.jobs.filterMap Job.writing? ++ (begun effects).filterMap Operation.writing?)
    (hreadings : jobs.filterMap Job.reading? =
      host.jobs.filterMap Job.reading? ++ (begun effects).filterMap Operation.reading?) :
    host.Performs { host with jobs := jobs, ready := host.ready ++ ready } effects fun _ => [] :=
  { refl host with
    ready := fun _ _ hmem => List.mem_append_left _ hmem
    records := hrecords.symm
    tickets := htickets
    writings := hwritings
    readings := hreadings }

end Performs

/-- What adds to a host carries out no effect. -/
theorem Grows.performs {host : Host} {change : Host → Host}
    {frames : ConnectionId → List ServerFrame} (h : host.Grows change frames) :
    host.Performs (change host) [] frames := by
  obtain ⟨a, hfits, hframes, hchange⟩ := h
  have hhost : change host = (host.adding a).recast host.application host.records :=
    hchange host.application host.records
  rw [hhost]
  exact .of_adding hfits hframes rfl rfl

variable (host : Host)

theorem performs_wakeAll (tasks : List Task) :
    host.Performs (host.wakeAll tasks) [] fun _ => [] :=
  (Grows.of_wakeAll host tasks).performs

theorem performs_request (request : Request) :
    host.Performs (host.request request).1 [] fun id => (request.frameTo? id).toList :=
  (host.grows_request request).performs

theorem performs_connect (capacity : Nat) (leftover : Bytes) :
    host.Performs (host.connect capacity leftover).1 [] fun _ => [] :=
  (host.grows_connect capacity leftover).performs

/-- Letting a stream go, or otherwise changing a link, leaves what is on its way. -/
theorem performs_changeLink {f : Link → Link}
    (hinbound : ∀ link, (f link).inbound.content = link.inbound.content)
    (houtbound : ∀ link, (f link).outbound.content = link.outbound.content)
    (transport : Transport) :
    host.Performs (host.changeLink transport f) [] fun _ => [] :=
  have hlength := host.length_changeLink transport f
  { Performs.refl host with
    completions := ⟨[], (List.append_nil _).symm, .nil _ _⟩
    links := Nat.le_of_eq hlength.symm
    inbound := host.inbound_changeLink hinbound transport
    outbound := host.outbound_changeLink houtbound transport }

theorem performs_release (transport : Transport) :
    host.Performs (host.release transport) [] fun _ => [] :=
  host.performs_changeLink (f := Link.release) (fun _ => rfl) (fun _ => rfl) transport

/-! ## Effects -/

theorem performs_deliver (id : ConnectionId) (event : Event) :
    host.Performs (host.deliver id event) [.deliver id event] fun other =>
      host.application.sends other host.records.history [(id, event)] := by
  obtain ⟨a, hfits, hframes, hdeliver⟩ := host.exists_deliver id event
    (host.application host.records.history id event).posts
  have hhost : host.deliver id event = _ := hdeliver host.application host.records rfl
  rw [hhost]
  refine .of_adding hfits (fun hrunning other => ?_) rfl rfl
  rw [hframes hrunning, Application.sends, Application.sends, List.append_nil]

theorem performs_start (operation : Operation) :
    host.Performs (host.start operation) [.start operation] fun _ => [] := by
  obtain ⟨more, hstart⟩ := host.exists_start operation
  have hhost : host.start operation = _ := hstart host.application host.records
  rw [hhost]
  refine .of_jobs rfl ?_ ?_ ?_
  · rw [List.map_append, List.map_singleton, Job.ticket_new]
    rfl
  · rw [List.filterMap_append]
    congr 1
    show List.filterMap _ _ = List.filterMap _ [operation]
    simp [List.filterMap_cons, Job.writing?_new]
  · rw [List.filterMap_append]
    congr 1
    show List.filterMap _ _ = List.filterMap _ [operation]
    simp [List.filterMap_cons, Job.reading?_new]

theorem performs_cancel (id : ConnectionId) :
    host.Performs (host.cancel id) [.cancel id] fun _ => [] := by
  obtain ⟨more, hcancel⟩ := host.exists_cancel id
  have hhost : host.cancel id = _ := hcancel host.application host.records
  -- A job that has been given up is still under way, and it is on the same stream.
  have hsame {β : Type} (part : Job → β)
      (hpart : ∀ job : Job, part { job with cancelled := true } = part job) :
      part ∘ (fun job => if job.id = id then { job with cancelled := true } else job) = part := by
    funext job
    show part (if job.id = id then _ else job) = part job
    split
    · exact hpart job
    · rfl
  rw [hhost]
  refine .of_jobs rfl ?_ ?_ ?_
  · rw [givenUp, List.map_map, hsame Job.ticket fun _ => rfl]
    exact (List.append_nil _).symm
  · rw [givenUp, List.filterMap_map, hsame Job.writing? fun _ => rfl]
    exact (List.append_nil _).symm
  · rw [givenUp, List.filterMap_map, hsame Job.reading? fun _ => rfl]
    exact (List.append_nil _).symm

theorem performs_effect (effect : Effect) :
    host.Performs (host.perform effect) [effect] fun id =>
      host.application.sends id host.records.history (told [effect]) := by
  cases effect with
  | deliver id event => exact host.performs_deliver id event
  | queued id frame => exact .of_records rfl rfl
  | start operation => exact host.performs_start operation
  | cancel id => exact host.performs_cancel id
  | release transport => exact { host.performs_release transport with }
  | count sample => exact .of_records rfl rfl
  | report notice => exact .of_records rfl rfl

/-- Effects are carried out one after another, and meanwhile the application asks what it asks about
the events that it is told of. -/
theorem performs_all (effects : List Effect) :
    host.Performs (effects.foldl perform host) effects fun id =>
      host.application.sends id host.records.history (told effects) := by
  induction effects generalizing host with
  | nil => exact .refl host
  | cons effect effects ih =>
    have hfirst := host.performs_effect effect
    have hlater := hfirst.trans (ih (host.perform effect))
    rw [hfirst.application, hfirst.history] at hlater
    simp only [← Application.sends_append, ← told_append] at hlater
    exact hlater

end Host

end WebSocket
