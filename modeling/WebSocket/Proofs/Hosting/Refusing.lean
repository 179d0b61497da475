import WebSocket.Proofs.Hosting.Happenings

/-!
# Letting nobody in

A host is barred when it is to let nobody in and no task is in the middle of letting in a client
(`Host.Barred`).  It changes in a few ways only then: the clients that were being let in become fewer
and never reach the engine, nothing is counted against them, and no stream is accepted
(`Host.Shuts`).  Whatever happens to a barred host is of this kind (`Happens.shuts`).  The engine and
the application are always what some mail has made of them (`Happens.hears`).
-/

namespace WebSocket.Host

variable {host host' host'' : Host} {mails more : List Mail}

/-- Nobody is to be let in, and no task has found before that it may let in a client. -/
structure Barred (host : Host) : Prop where
  shutdown : host.shutdown = true
  cleared : host.cleared = false

/-! ## What may still change -/

/-- From one state of a barred host to another. -/
structure Shuts (host : Host) (mails : List Mail) (host' : Host) : Prop
    extends host'.Barred, host.Works mails host' where
  running : host'.running = true → host.running = true
  attempts : host'.attempts.Sublist host.attempts
  acceptor : host'.acceptor = host.acceptor ∨ host'.acceptor.phase = .ended
  asked : host'.records.asked = host.records.asked
  errors : ∀ kind : ErrorKind, kind.isOfEntrance = true →
    host'.errorCount kind = host.errorCount kind

theorem Welcomes.shuts (h : host.Welcomes mails host') (hbarred : host.Barred) :
    host.Shuts mails host' where
  toWorks := h.toWorks
  shutdown := h.shutdown.trans hbarred.shutdown
  cleared := h.cleared.trans hbarred.cleared
  running hrunning := h.running.symm.trans hrunning
  attempts := h.attempts ▸ .refl _
  acceptor := .inl h.acceptor
  asked := h.asked
  errors := h.errors

theorem Serves.shuts (h : host.Serves mails host') (hbarred : host.Barred) :
    host.Shuts mails host' :=
  h.toWelcomes.shuts hbarred

theorem Shuts.refl (hbarred : host.Barred) : host.Shuts [] host :=
  (Serves.refl host).shuts hbarred

theorem Shuts.trans (h : host.Shuts mails host') (h' : host'.Shuts more host'') :
    host.Shuts (mails ++ more) host'' where
  toBarred := h'.toBarred
  toWorks := h.toWorks.trans h'.toWorks
  running hrunning := h.running (h'.running hrunning)
  attempts := h'.attempts.trans h.attempts
  acceptor := by
    rcases h'.acceptor with hsame | hended
    · rw [hsame]
      exact h.acceptor
    · exact .inr hended
  asked := h'.asked.trans h.asked
  errors kind hkind := (h'.errors kind hkind).trans (h.errors kind hkind)

/-- Whose turn it is, and the order of the line, matter to nothing else. -/
theorem Shuts.of_line (hbarred : host.Barred) (current : Option Task) (ready : List Task)
    (pacing : Pacing) :
    host.Shuts [] { host with current := current, ready := ready, pacing := pacing } :=
  { Shuts.refl hbarred with shutdown := hbarred.shutdown, cleared := hbarred.cleared }

/-! ## Turns of the tasks that let clients in -/

/-- The acceptor ends, and of what waits to be accepted only the links change. -/
theorem exists_endAccepting (host : Host) : ∃ links, links.length = host.links.length ∧
    host.endAccepting =
      { host with acceptor := host.acceptor.finish, arrivals := [], links := links } := by
  have hall (arrivals : List Arrival) (host : Host) : ∃ links, links.length = host.links.length ∧
      arrivals.foldl dismiss host = { host with links := links } := by
    induction arrivals generalizing host with
    | nil => exact ⟨_, rfl, rfl⟩
    | cons arrival arrivals ih =>
      cases arrival with
      | failure fault => exact ih host
      | stream transport peer =>
        obtain ⟨links, hlength, hsame⟩ := ih (host.release transport)
        exact ⟨links, hlength.trans (host.length_changeLink transport _), hsame⟩
  exact hall host.arrivals { host with acceptor := host.acceptor.finish, arrivals := [] }

theorem endAccepting_eq (host : Host) :
    { host with acceptor := host.acceptor.finish, arrivals := [] }.Serves [] host.endAccepting := by
  obtain ⟨links, hlength, hends⟩ := host.exists_endAccepting
  rw [hends]
  exact .of_same (.of_work _ _ _ _ _ _ _ _) rfl rfl rfl rfl rfl (Nat.le_of_eq hlength.symm) rfl

theorem ended_endAccepting (host : Host) : host.endAccepting.acceptor.phase = .ended := by
  rw [host.endAccepting_eq.acceptor]
  rfl

theorem shuts_endAccepting (hbarred : host.Barred) : host.Shuts [] host.endAccepting := by
  have hbase : host.Shuts [] { host with acceptor := host.acceptor.finish, arrivals := [] } :=
    { Shuts.refl hbarred with
      shutdown := hbarred.shutdown
      cleared := hbarred.cleared
      acceptor := .inr rfl }
  exact hbase.trans (host.endAccepting_eq.shuts hbase.toBarred)

theorem shuts_abandon (hbarred : host.Barred) (transport : Transport) :
    host.Shuts [] (host.abandon transport) := by
  have hbase : host.Shuts [] (host.removeAttempt transport) :=
    { Shuts.refl hbarred with
      shutdown := hbarred.shutdown
      cleared := hbarred.cleared
      attempts := List.filter_sublist }
  exact hbase.trans ((serves_changeLink _ transport _).shuts hbase.toBarred)

/-! ## The turn of the engine -/

theorem serves_releaseAll (host : Host) (transports : List Transport) :
    host.Serves [] (transports.foldl release host) := by
  induction transports generalizing host with
  | nil => exact .refl host
  | cons transport transports ih => exact (host.serves_changeLink transport _).trans (ih _)

/-- Of a host whose engine has ended, only the streams that waited for it are let go. -/
theorem retire_eq (host : Host) :
    ∃ host₁, host.closed.Serves [] host₁ ∧ host.retire = host₁.refuse :=
  ⟨_, serves_releaseAll host.closed _, rfl⟩

theorem refuse_of_shutdown (hshut : host.shutdown = true) : host.refuse = host := if_pos hshut

theorem shuts_retire (hbarred : host.Barred) : host.Shuts [] host.retire := by
  obtain ⟨host₁, hserves, hretire⟩ := host.retire_eq
  have hclosed : host.Shuts [] host.closed :=
    { Shuts.refl hbarred with
      shutdown := hbarred.shutdown
      cleared := hbarred.cleared
      running := fun h => absurd h Bool.false_ne_true
      brought := nofun }
  rw [hretire, refuse_of_shutdown (hserves.shutdown.trans hbarred.shutdown)]
  exact hclosed.trans (hserves.shuts hclosed.toBarred)

/-- In its turn the engine handles some mail, and it may end after that. -/
theorem engineTurn_cases (host : Host) (allowance : Nat) :
    ∃ mails host', host.Serves mails host' ∧ ((host.engineTurn allowance).1 = host' ∨
      (host.engineTurn allowance).1 = host'.retire) := by
  induction allowance generalizing host with
  | zero =>
    refine ⟨[], host, .refl host, ?_⟩
    unfold engineTurn
    split
    · exact .inl rfl
    · split
      · exact .inr rfl
      · exact .inl rfl
  | succ allowance ih =>
    unfold engineTurn
    split
    · exact ⟨[], host, .refl host, .inl rfl⟩
    · split
      · exact ⟨[], host, .refl host, .inr rfl⟩
      · cases htake : host.takeMail? with
        | none => exact ⟨[], host, .refl host, .inl rfl⟩
        | some taken =>
          obtain ⟨mail, rest⟩ := taken
          obtain ⟨mails, host', hserves, houtcome⟩ := ih (rest.handle mail)
          exact ⟨mail :: mails, host', (serves_handle htake).trans hserves, houtcome⟩

theorem shuts_engineTurn (hbarred : host.Barred) (allowance : Nat) :
    ∃ mails, host.Shuts mails (host.engineTurn allowance).1 := by
  obtain ⟨mails, host', hserves, hsame | hends⟩ := host.engineTurn_cases allowance
  · rw [hsame]
    exact ⟨mails, hserves.shuts hbarred⟩
  · have hshuts := hserves.shuts hbarred
    rw [hends]
    exact ⟨mails ++ [], hshuts.trans (shuts_retire hshuts.toBarred)⟩

/-! ## Whatever happens -/

/-- What may happen to a host: a step, the end of letting clients in, or something that lets nobody
in, clients that come included. -/
theorem Happens.kinds (h : host.Happens host') :
    host' = host.step ∨ host' = host.refuse ∨ host.Serves [] host' ∨
      host.acceptor.phase ≠ .ended ∧ host.Welcomes [] host' := by
  cases h with
  | step => exact .inl rfl
  | shuffle pacing hsame =>
    refine .inr (.inr (.inl (.of_core ⟨⟨rfl, rfl, rfl, rfl, rfl, ?_⟩, rfl, fun _ _ => rfl⟩ rfl rfl)))
    exact fun task hother => (hsame task hother).mpr
  | wake task => exact .inr (.inr (.inl (host.serves_wake task)))
  | pass now =>
    have haside : host.Aside { host with now := now } := .of_work host _ _ _ _ _ _ _
    exact .inr (.inr (.inl (.of_core haside rfl rfl)))
  | fire deadline =>
    have htimers : host.Serves [] { host with
        now := deadline, timers := (host.timers.partition (·.deadline ≤ deadline)).2 } :=
      .of_core (.of_work host _ _ _ _ _ _ _) rfl rfl
    exact .inr (.inr (.inl (htimers.trans (serves_wakeAll _ _))))
  | report notice =>
    have haside : host.Aside (host.report notice) := { Aside.refl host with }
    exact .inr (.inr (.inl (.of_core haside rfl rfl)))
  | request request => exact .inr (.inr (.inl (.of_performs (host.performs_request request))))
  | connect capacity leftover =>
    exact .inr (.inr (.inl (.of_performs (host.performs_connect capacity leftover))))
  | refuse => exact .inr (.inl rfl)
  | arrive capacity peer =>
    rcases host.arrive_cases capacity peer with hnone | hcomes
    · rw [hnone]
      exact .inr (.inr (.inl (.refl host)))
    · exact .inr (.inr (.inr hcomes))
  | arriveBroken fault =>
    rcases host.arriveBroken_cases fault with hnone | hcomes
    · rw [hnone]
      exact .inr (.inr (.inl (.refl host)))
    · exact .inr (.inr (.inr hcomes))
  | write client data => exact .inr (.inr (.inl (host.serves_clientWrite client data)))
  | read hread => exact .inr (.inr (.inl (serves_clientRead hread)))
  | shutDown client => exact .inr (.inr (.inl (host.serves_clientShutDown client)))
  | hangUp client => exact .inr (.inr (.inl (host.serves_clientHangUp client)))

theorem Unfelt.hears (h : host.Unfelt host') : host.Hears [] host' := ⟨h.engine, h.history⟩

theorem hears_turn (host : Host) (task : Task) : ∃ mails, host.Hears mails (host.turn task).1 := by
  cases task with
  | engine =>
    obtain ⟨mails, host', hserves, houtcome⟩ := host.engineTurn_cases mailPerTurn
    have hhears := hserves.toHears
    rcases houtcome with hsame | hends
    · exact ⟨mails, hsame ▸ hhears⟩
    · obtain ⟨host₁, hretired, hretire⟩ := host'.retire_eq
      have hclosed : host'.Hears [] host₁ := ⟨hretired.engine, hretired.history⟩
      refine ⟨mails ++ ([] ++ []), ?_⟩
      show host.Hears _ (host.engineTurn mailPerTurn).1
      rw [hends, hretire]
      exact hhears.trans (hclosed.trans host₁.unfelt_refuse.hears)
  | clients => exact ⟨[], rfl, rfl⟩
  | acceptor => exact ⟨[], host.unfelt_acceptorTurn.hears⟩
  | reader id => exact ⟨[], (host.serves_jobTurn (.reader id)).toHears⟩
  | writer id => exact ⟨[], (host.serves_jobTurn (.writer id)).toHears⟩
  | opening transport => exact ⟨[], (host.unfelt_openingTurn transport).hears⟩

theorem hears_step (host : Host) : ∃ mails, host.Hears mails host.step := by
  have hpart := host.stepPart
  generalize host.step = next at hpart
  cases hpart with
  | gives => exact ⟨[], rfl, rfl⟩
  | @continues task => exact host.hears_turn task
  | @ends task =>
    obtain ⟨mails, hhears⟩ := host.hears_turn task
    exact ⟨mails, hhears.engine, hhears.history⟩

theorem Happens.hears (h : host.Happens host') : ∃ mails, host.Hears mails host' := by
  rcases h.kinds with rfl | rfl | hserves | ⟨-, hwelcomes⟩
  · exact host.hears_step
  · exact ⟨[], host.unfelt_refuse.hears⟩
  · exact ⟨[], hserves.toHears⟩
  · exact ⟨[], hwelcomes.toHears⟩

theorem shuts_turn (hbarred : host.Barred)
    (hlinks : ∀ attempt ∈ host.attempts, attempt.transport < host.links.length) (task : Task) :
    ∃ mails, host.Shuts mails (host.turn task).1 := by
  cases task with
  | engine => exact shuts_engineTurn hbarred _
  | clients => exact ⟨[], .refl hbarred⟩
  | acceptor =>
    refine ⟨[], ?_⟩
    rw [turn, acceptorTurn_of_shutdown hbarred.shutdown hbarred.cleared]
    exact shuts_endAccepting hbarred
  | reader id => exact ⟨[], (host.serves_jobTurn (.reader id)).shuts hbarred⟩
  | writer id => exact ⟨[], (host.serves_jobTurn (.writer id)).shuts hbarred⟩
  | opening transport =>
    refine ⟨[], ?_⟩
    rcases openingTurn_of_shutdown hbarred.shutdown hbarred.cleared hlinks transport with
      hends | ⟨hsame, -⟩
    · rw [turn, hends]
      exact shuts_abandon hbarred transport
    · rw [turn, hsame]
      exact .refl hbarred

theorem shuts_step (hbarred : host.Barred)
    (hlinks : ∀ attempt ∈ host.attempts, attempt.transport < host.links.length) :
    ∃ mails, host.Shuts mails host.step := by
  have hpart := host.stepPart
  generalize host.step = next at hpart
  cases hpart with
  | gives current ready pacing => exact ⟨[], .of_line hbarred current ready pacing⟩
  | @continues task => exact shuts_turn hbarred hlinks task
  | @ends task more =>
    obtain ⟨mails, hshuts⟩ := shuts_turn hbarred hlinks task
    exact ⟨mails, { hshuts with cleared := rfl }⟩

theorem Happens.shuts (h : host.Happens host') (hbarred : host.Barred)
    (hlinks : ∀ attempt ∈ host.attempts, attempt.transport < host.links.length) :
    ∃ mails, host.Shuts mails host' := by
  rcases h.kinds with rfl | rfl | hserves | ⟨-, hwelcomes⟩
  · exact shuts_step hbarred hlinks
  · rw [refuse_of_shutdown hbarred.shutdown]
    exact ⟨[], .refl hbarred⟩
  · exact ⟨[], hserves.shuts hbarred⟩
  · exact ⟨[], hwelcomes.shuts hbarred⟩

end WebSocket.Host
