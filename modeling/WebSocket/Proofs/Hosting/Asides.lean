import WebSocket.Proofs.Hosting.Admission
import WebSocket.Proofs.Hosting.Refinement
import WebSocket.Proofs.Session.Failures

/-!
# What lets nobody in

Most of what happens to a host is aside from letting clients in: the engine handles mail, operations
go on, clients read and write.  The acceptor and whether clients are kept out stay as they are then,
no error of letting clients in is counted, and no task loses its place in the line (`Host.Aside`).
What the engine and the application have become, the mail alone settles, and all streams that it
brought were waiting for the engine or are new (`Host.Serves`).  So it is when clients come, as long
as none of them is let in (`Host.Welcomes`).
-/

namespace WebSocket

/-- Handling mail and more of it is handling that afterwards. -/
theorem Engine.run_append_all (e : Engine) (mails more : List Mail) :
    e.run (mails ++ more) =
      (((e.run mails).1.run more).1, (e.run mails).2 ++ ((e.run mails).1.run more).2) := by
  induction mails generalizing e with
  | nil => simp [run]
  | cons mail mails ih => simp [run, ih, List.append_assoc]

/-- What an effect counts of an error that is no panic is the sample in it. -/
theorem Records.value_after (application : Application) (r : Records) (effect : Effect)
    {kind : ErrorKind} (hkind : kind ≠ .panic) :
    (r.after application effect).metrics.value (Sample.error kind).metric =
      r.metrics.value (Sample.error kind).metric + ((counted [effect]).count kind : Nat) := by
  have hother {sample : Sample} (hne : sample ≠ .error kind) :
      (r.count sample).metrics.value (Sample.error kind).metric =
        r.metrics.value (Sample.error kind).metric :=
    Metrics.value_add_other _ _ (Sample.metric_ne_error hne).symm
  cases effect with
  | queued | start | cancel | release | report => exact (Int.add_zero _).symm
  | deliver id event =>
    have hpanic : Sample.error .panic ≠ .error kind := fun heq =>
      hkind (Sample.error.inj heq).symm
    simp only [after]
    refine Eq.trans ?_ (Int.add_zero _).symm
    split
    · rfl
    · exact Metrics.value_add_other _ _ (Sample.metric_ne_error hpanic).symm
  | count sample =>
    by_cases heq : sample = .error kind
    · subst heq
      refine (Metrics.value_add_self _ _ _).trans ?_
      simp [counted, Sample.amount]
    · refine (hother heq).trans ?_
      cases sample with
      | error other =>
        have hne : other ≠ kind := fun hsame => heq (congrArg Sample.error hsame)
        simp [counted, hne]
      | opened | closed | frame direction => exact (Int.add_zero _).symm

/-- What is counted of an error that is no panic are the samples of it among the effects. -/
theorem Records.value_foldl_after (application : Application) (r : Records) (effects : List Effect)
    {kind : ErrorKind} (hkind : kind ≠ .panic) :
    (effects.foldl (after application) r).metrics.value (Sample.error kind).metric =
      r.metrics.value (Sample.error kind).metric + ((counted effects).count kind : Nat) := by
  induction effects generalizing r with
  | nil => exact (Int.add_zero _).symm
  | cons effect effects ih =>
    have hsplit : counted (effect :: effects) = counted [effect] ++ counted effects :=
      counted_append [effect] effects
    rw [List.foldl_cons, ih, r.value_after application effect hkind, hsplit, List.count_append]
    omega

theorem Records.asked_foldl_after (application : Application) (r : Records)
    (effects : List Effect) : (effects.foldl (after application) r).asked = r.asked := by
  induction effects generalizing r with
  | nil => rfl
  | cons effect effects ih =>
    refine (ih (r.after application effect)).trans ?_
    cases effect with
    | deliver id event =>
      simp only [after]
      split <;> rfl
    | queued | start | cancel | release | count | report => rfl

/-- An error is counted if there is a sample of it. -/
theorem mem_counted {effects : List Effect} {kind : ErrorKind} :
    kind ∈ counted effects ↔ .count (.error kind) ∈ effects := by
  rw [counted, List.mem_filterMap]
  constructor
  · rintro ⟨effect, hmem, heq⟩
    split at heq
    · cases heq
      exact hmem
    · cases heq
  · exact fun hmem => ⟨_, hmem, rfl⟩

/-- Whether errors of a class come of letting clients in. -/
def ErrorKind.isOfEntrance : ErrorKind → Bool
  | handshake | accept => true
  | protocol | io | panic => false

namespace Host

/-- A task can go on: it has its turn, or it stands in line for one. -/
def Awake (host : Host) (task : Task) : Prop := host.current = some task ∨ task ∈ host.ready

/-- The streams that have been let in and wait for the engine. -/
def brought (host : Host) : List Transport := host.completions.filterMap broughtStream

/-- From one state of a host to another, aside from letting clients in. -/
structure Aside (host host' : Host) : Prop extends host.SameLine host' where
  asked : host'.records.asked = host.records.asked
  errors : ∀ kind : ErrorKind, kind.isOfEntrance = true →
    host'.errorCount kind = host.errorCount kind

namespace Aside

variable {host host' host'' : Host}

theorem refl (host : Host) : host.Aside host := ⟨.refl host, rfl, fun _ _ => rfl⟩

theorem trans (h : host.Aside host') (h' : host'.Aside host'') : host.Aside host'' where
  toSameLine := h.toSameLine.trans h'.toSameLine
  asked := h'.asked.trans h.asked
  errors kind hkind := (h'.errors kind hkind).trans (h.errors kind hkind)

theorem awake (h : host.Aside host') {task : Task} (hother : task ≠ .clients)
    (hawake : host.Awake task) : host'.Awake task :=
  hawake.imp (h.current.trans ·) (h.ready task hother)

/-- The engine, the mail, the streams and the operations have no part in letting clients in. -/
theorem of_work (host : Host) (now : Nat) (engine : Engine) (completions : List Completion)
    (requests : Fifo Request) (links : List Link) (jobs : List Job) (timers : List Timer) :
    host.Aside { host with
      now := now, engine := engine, completions := completions, requests := requests,
      links := links, jobs := jobs, timers := timers } :=
  { refl host with }

end Aside

variable (host : Host)

/-! ## Effects -/

theorem errorCount_count_of_ne {sample : Sample} {kind : ErrorKind} (h : sample ≠ .error kind) :
    (host.count sample).errorCount kind = host.errorCount kind :=
  Metrics.value_add_other _ _ (Sample.metric_ne_error h).symm

/-- The effects of an engine, and the panics of its application, count nothing of letting clients in. -/
theorem Performs.aside {host host' : Host} {effects : List Effect}
    {frames : ConnectionId → List ServerFrame} (h : host.Performs host' effects frames)
    (hown : Own effects) : host.Aside host' where
  toSameLine := h.toSameLine
  asked := by rw [h.records, Records.asked_foldl_after]
  errors kind hkind := by
    have hnone : (counted effects).count kind = 0 := by
      refine List.count_eq_zero_of_not_mem fun hmem => ?_
      have hforeign : (Sample.error kind).isOwn = false := by
        cases kind <;> first | rfl | cases hkind
      exact absurd (hforeign.symm.trans (hown _ (mem_counted.mp hmem))) nofun
    have hpanic : kind ≠ .panic := by
      rintro rfl
      cases hkind
    rw [errorCount, h.records, Records.value_foldl_after _ _ _ hpanic, hnone]
    exact Int.add_zero _

theorem aside_wakeAll (tasks : List Task) : host.Aside (host.wakeAll tasks) :=
  (host.performs_wakeAll tasks).aside nofun

theorem aside_wake (task : Task) : host.Aside (host.wake task) := host.aside_wakeAll [task]

theorem awake_wake (task : Task) : (host.wake task).Awake task := by
  unfold wake
  split
  · assumption
  · exact .inr (List.mem_append_right _ (List.mem_singleton_self _))

theorem awake_wakeAll {tasks : List Task} {task : Task} (hother : task ≠ .clients)
    (hmem : task ∈ tasks) : (host.wakeAll tasks).Awake task := by
  induction tasks generalizing host with
  | nil => cases hmem
  | cons first tasks ih =>
    rcases List.mem_cons.mp hmem with rfl | hmem
    · exact (aside_wakeAll _ tasks).awake hother (host.awake_wake task)
    · exact ih (host.wake first) hmem

theorem aside_handle (mail : Mail) : host.Aside (host.handle mail) :=
  (Aside.of_work host _ _ _ _ _ _ _).trans
    ((host.performs_handle mail).aside (host.engine.own_dispatch mail))

theorem aside_takeMail {host rest : Host} {mail : Mail} (h : host.takeMail? = some (mail, rest)) :
    host.Aside rest := by
  unfold takeMail? at h
  split at h
  · cases h
    exact .of_work host _ _ _ _ _ _ _
  · obtain ⟨⟨request, later⟩, -, hrest⟩ := Option.map_eq_some_iff.mp h
    cases hrest
    exact .of_work host _ _ _ _ _ _ _

/-! ## Serving the clients that are there -/

/-- What the engine has become and what the application was told are what some mail makes of
them. -/
structure Hears (host : Host) (mails : List Mail) (host' : Host) : Prop where
  engine : host'.engine = (host.engine.run mails).1
  history : host'.records.history =
    (told (host.engine.run mails).2).reverse ++ host.records.history

theorem Hears.trans {host host' host'' : Host} {mails more : List Mail} (h : host.Hears mails host')
    (h' : host'.Hears more host'') : host.Hears (mails ++ more) host'' where
  engine := by rw [h'.engine, h.engine, Engine.run_append_all]
  history := by
    rw [h'.history, h.history, h.engine, Engine.run_append_all, told_append, List.reverse_append,
      List.append_assoc]

/-- The engine has handled some mail, and the streams that came to it are accounted for. -/
structure Works (host : Host) (mails : List Mail) (host' : Host) : Prop
    extends host.Hears mails host' where
  links : host.links.length ≤ host'.links.length
  /-- What waits for the engine has waited before or is new. -/
  brought : ∀ transport ∈ host'.brought,
    transport ∈ host.brought ∨ host.links.length ≤ transport
  /-- So has all that the engine was told of. -/
  mails : ∀ mail ∈ mails, ∀ transport, mail.stream? = some transport →
    transport ∈ host.brought ∨ host.links.length ≤ transport

theorem Works.trans {host host' host'' : Host} {mails more : List Mail} (h : host.Works mails host')
    (h' : host'.Works more host'') : host.Works (mails ++ more) host'' where
  toHears := h.toHears.trans h'.toHears
  links := Nat.le_trans h.links h'.links
  brought transport hmem := by
    rcases h'.brought transport hmem with hmem | hle
    · exact h.brought transport hmem
    · exact .inr (Nat.le_trans h.links hle)
  mails mail hmem transport hstream := by
    rcases List.mem_append.mp hmem with hmem | hmem
    · exact h.mails mail hmem transport hstream
    · rcases h'.mails mail hmem transport hstream with hmem | hle
      · exact h.brought transport hmem
      · exact .inr (Nat.le_trans h.links hle)

/-- The host has worked, and clients may have come, but nobody was let in. -/
structure Welcomes (host : Host) (mails : List Mail) (host' : Host) : Prop
    extends host.Aside host', host.Works mails host' where
  running : host'.running = host.running
  attempts : host'.attempts = host.attempts

theorem Welcomes.trans {host host' host'' : Host} {mails more : List Mail}
    (h : host.Welcomes mails host') (h' : host'.Welcomes more host'') :
    host.Welcomes (mails ++ more) host'' where
  toAside := h.toAside.trans h'.toAside
  toWorks := h.toWorks.trans h'.toWorks
  running := h'.running.trans h.running
  attempts := h'.attempts.trans h.attempts

/-- The host has worked aside from letting clients in. -/
structure Serves (host : Host) (mails : List Mail) (host' : Host) : Prop
    extends host.Welcomes mails host' where
  arrivals : host'.arrivals = host.arrivals

namespace Serves

variable {host host' host'' : Host} {mails more : List Mail}

theorem trans (h : host.Serves mails host') (h' : host'.Serves more host'') :
    host.Serves (mails ++ more) host'' where
  toWelcomes := h.toWelcomes.trans h'.toWelcomes
  arrivals := h'.arrivals.trans h.arrivals

/-- Nothing but links, requests, operations and the clock has changed. -/
theorem of_same (haside : host.Aside host') (hengine : host'.engine = host.engine)
    (hrunning : host'.running = host.running) (hattempts : host'.attempts = host.attempts)
    (harrivals : host'.arrivals = host.arrivals)
    (hhistory : host'.records.history = host.records.history)
    (hlinks : host.links.length ≤ host'.links.length)
    (hbrought : host'.brought = host.brought) : host.Serves [] host' where
  toAside := haside
  running := hrunning
  attempts := hattempts
  arrivals := harrivals
  links := hlinks
  engine := hengine
  history := hhistory
  brought := fun _ hmem => .inl (hbrought ▸ hmem)
  mails := nofun

theorem refl (host : Host) : host.Serves [] host :=
  .of_same (.refl host) rfl rfl rfl rfl rfl (Nat.le_refl _) rfl

theorem of_core (haside : host.Aside host') (hcore : host'.core = host.core)
    (hhistory : host'.records.history = host.records.history) : host.Serves [] host' := by
  simp only [core, Core.mk.injEq] at hcore
  obtain ⟨hengine, hrunning, hcompletions, -, hlinks, -, hattempts, harrivals⟩ := hcore
  refine .of_same haside hengine hrunning hattempts harrivals hhistory ?_ ?_
  · rw [hlinks]
  · rw [Host.brought, Host.brought, hcompletions]

/-- To carry out no effect lets nobody in. -/
theorem of_performs {frames : ConnectionId → List ServerFrame}
    (h : host.Performs host' [] frames) : host.Serves [] host' where
  toAside := h.aside nofun
  running := h.running
  attempts := h.attempts
  arrivals := h.arrivals
  links := h.links
  engine := h.engine
  history := h.history
  brought transport hmem := by
    obtain ⟨added, hadded, hbrings⟩ := h.completions
    rw [Host.brought, hadded, List.filterMap_append, List.mem_append] at hmem
    exact hmem.imp_right fun hnew => (hbrings.new transport hnew).1
  mails := nofun

end Serves

theorem serves_wakeAll (tasks : List Task) : host.Serves [] (host.wakeAll tasks) :=
  .of_performs (host.performs_wakeAll tasks)

theorem serves_wake (task : Task) : host.Serves [] (host.wake task) := host.serves_wakeAll [task]

theorem serves_changeLink (transport : Transport) (f : Link → Link) :
    host.Serves [] (host.changeLink transport f) :=
  .of_same (.of_work host _ _ _ _ _ _ _) rfl rfl rfl rfl rfl
    (Nat.le_of_eq (host.length_changeLink transport f).symm) rfl

/-- The engine handles a piece of mail. -/
theorem serves_handle {host rest : Host} {mail : Mail} (h : host.takeMail? = some (mail, rest)) :
    host.Serves [mail] (rest.handle mail) := by
  have htakes := takes_takeMail h
  have hperforms := rest.performs_handle mail
  obtain ⟨first, hfirst, -, hstream, -⟩ := htakes.completions
  have hbrought : host.brought = mail.stream?.toList ++ rest.brought := by
    rw [Host.brought, hfirst, List.filterMap_append, hstream]
    rfl
  have hrun : host.engine.run [mail] = rest.engine.dispatch mail := by
    rw [htakes.engine]
    simp [Engine.run]
  have hhistory : rest.records.history = host.records.history := by
    unfold takeMail? at h
    split at h
    · cases h
      rfl
    · obtain ⟨popped, -, hrest⟩ := Option.map_eq_some_iff.mp h
      cases hrest
      rfl
  exact {
    toAside := (aside_takeMail h).trans (rest.aside_handle mail)
    running := hperforms.running.trans htakes.running
    attempts := hperforms.attempts.trans htakes.attempts
    arrivals := hperforms.arrivals.trans htakes.arrivals
    links := by
      rw [← htakes.links]
      exact hperforms.links
    engine := by
      rw [hrun]
      exact hperforms.engine
    history := by
      rw [hrun, ← hhistory]
      exact hperforms.history
    brought := by
      intro transport hmem
      obtain ⟨added, hadded, hbrings⟩ := hperforms.completions
      rw [Host.brought, hadded, List.filterMap_append, List.mem_append] at hmem
      refine hmem.imp (fun hold => ?_) fun hnew => ?_
      · rw [hbrought]
        exact List.mem_append_right _ hold
      · rw [← htakes.links]
        exact (hbrings.new transport hnew).1
    mails := by
      intro other hmem transport hbrings
      rw [List.mem_singleton.mp hmem] at hbrings
      refine .inl ?_
      rw [hbrought, hbrings]
      exact List.mem_cons_self }

/-! ## Operations -/

/-- The end of an operation lets nobody in. -/
theorem serves_complete {completion : Completion} (h : broughtStream completion = none) :
    host.Serves [] (host.complete completion) := by
  by_cases hrunning : host.running = true
  · have hsame : { host with completions := host.completions ++ [completion] }.brought =
        host.brought := by
      rw [brought, List.filterMap_append, List.filterMap_cons, h]
      exact List.append_nil _
    have hcompletion :
        host.Serves [] { host with completions := host.completions ++ [completion] } :=
      .of_same (.of_work host _ _ _ _ _ _ _) rfl rfl rfl rfl rfl (Nat.le_refl _) hsame
    have hcomplete : host.complete completion =
        { host with completions := host.completions ++ [completion] }.wake .engine :=
      if_pos hrunning
    rw [hcomplete]
    exact hcompletion.trans (serves_wake _ .engine)
  · rw [host.complete_of_not_running hrunning, h]
    exact .refl host

theorem broughtStream_step {job : Job} {link link' : Link} {completion : Completion}
    (h : job.step link = (link', .inr completion)) : broughtStream completion = none := by
  unfold Job.step at h
  split at h
  · split at h
    · cases h
      rfl
    · split at h <;> cases h <;> rfl
  · split at h
    · cases h
      rfl
    · split at h
      · cases h
        rfl
      · cases h
      · dsimp only at h
        split at h <;> cases h
        rfl

theorem serves_jobTurn (task : Task) : host.Serves [] (host.jobTurn task) := by
  unfold jobTurn
  split
  · exact .refl host
  · split
    · exact .refl host
    · rename_i job _ _ link _
      cases hstep : job.step link with
      | mk link' outcome =>
        have hlink := host.serves_changeLink job.transport fun _ => link'
        have hjobs (changed : Host) (jobs : List Job) :
            changed.Serves [] { changed with jobs := jobs } :=
          .of_same (.of_work changed _ _ _ _ _ _ _) rfl rfl rfl rfl rfl (Nat.le_refl _) rfl
        cases outcome with
        | inl waiting => exact hlink.trans (hjobs _ _)
        | inr completion =>
          exact (hlink.trans (hjobs _ _)).trans
            (serves_complete _ (broughtStream_step hstep))

/-! ## Clients that are there -/

theorem serves_clientWrite (client : Transport) (data : Bytes) :
    host.Serves [] (host.clientWrite client data).1 := by
  unfold clientWrite
  split
  · exact .refl host
  · dsimp only
    split
    · exact .refl host
    · exact (host.serves_changeLink client _).trans (serves_wakeAll _ _)
    · exact .refl host

theorem serves_clientRead {host host' : Host} {client : Transport} {most : Option Nat}
    {data : Bytes} {ended : Bool} (h : host.clientRead? client most = some (host', data, ended)) :
    host.Serves [] host' := by
  obtain ⟨link, -, hlink⟩ := Option.map_eq_some_iff.mp h
  cases hlink
  exact (host.serves_changeLink client _).trans (serves_wakeAll _ _)

theorem serves_clientShutDown (client : Transport) :
    host.Serves [] (host.clientShutDown client) :=
  (host.serves_changeLink client _).trans (serves_wakeAll _ _)

theorem serves_clientHangUp (client : Transport) : host.Serves [] (host.clientHangUp client) :=
  (host.serves_changeLink client _).trans (serves_wakeAll _ _)

/-! ## Clients that come -/

/-- A client that comes waits to be accepted, unless the acceptor has ended. -/
theorem arrive_cases (capacity : Nat) (peer : SocketAddress) :
    host.arrive capacity peer = (host, none) ∨ host.acceptor.phase ≠ .ended ∧
      host.Welcomes [] (host.arrive capacity peer).1 := by
  unfold arrive
  split
  · exact .inl rfl
  · rename_i hphase
    let next : Host := { host with
      links := host.links ++ [.new capacity]
      arrivals := host.arrivals ++ [.stream host.links.length peer] }
    have hcomes : host.Welcomes [] next := {
      Serves.refl host with
      links := by simp [next]
      brought := fun _ => .inl }
    exact .inr ⟨hphase, hcomes.trans (next.serves_wake .acceptor).toWelcomes⟩

theorem arriveBroken_cases (fault : Fault) :
    host.arriveBroken fault = (host, false) ∨ host.acceptor.phase ≠ .ended ∧
      host.Welcomes [] (host.arriveBroken fault).1 := by
  unfold arriveBroken
  split
  · exact .inl rfl
  · rename_i hphase
    let next : Host := { host with arrivals := host.arrivals ++ [.failure fault] }
    have hcomes : host.Welcomes [] next := { Serves.refl host with }
    exact .inr ⟨hphase, hcomes.trans (next.serves_wake .acceptor).toWelcomes⟩

end Host

end WebSocket
