import WebSocket.Proofs.Hosting.Refusing

/-!
# Tasks that are told to let nobody in

When a host is to let nobody in, every task that lets clients in can go on, the acceptor also in the
middle of a pause (`Host.Roused`).  A task that has found before that it may let in a client has its
turn, so there is one of them at most, and there is none when the engine has ended.  Whatever happens
to a host, it keeps to that (`Host.Arises.poised`).
-/

namespace WebSocket.Host

variable {host host' host'' : Host} {mails : List Mail}

def admitting : Task → Bool
  | .acceptor | .opening _ => true
  | .engine | .clients | .reader _ | .writer _ => false

/-! ## Turns of attempts -/

/-- From one state of a host to another when a client that is being let in gets on or gives up. -/
structure Tries (host host' : Host) : Prop where
  settings : host'.settings = host.settings
  shutdown : host'.shutdown = host.shutdown
  acceptor : host'.acceptor = host.acceptor
  arrivals : host'.arrivals = host.arrivals
  current : host'.current = host.current
  ready : ∀ task ∈ host.ready, task ∈ host'.ready
  accepts : host'.errorCount .accept = host.errorCount .accept
  /-- No attempt to let a client in begins. -/
  attempts : (host'.attempts.map (·.transport)).Sublist (host.attempts.map (·.transport))

namespace Tries

theorem refl (host : Host) : host.Tries host :=
  ⟨rfl, rfl, rfl, rfl, rfl, fun _ h => h, rfl, .refl _⟩

theorem trans (h : host.Tries host') (h' : host'.Tries host'') : host.Tries host'' where
  settings := h'.settings.trans h.settings
  shutdown := h'.shutdown.trans h.shutdown
  acceptor := h'.acceptor.trans h.acceptor
  arrivals := h'.arrivals.trans h.arrivals
  current := h'.current.trans h.current
  ready task hmem := h'.ready task (h.ready task hmem)
  accepts := h'.accepts.trans h.accepts
  attempts := h'.attempts.trans h.attempts

theorem awake (h : host.Tries host') {task : Task} (hawake : host.Awake task) : host'.Awake task :=
  hawake.imp (h.current.trans ·) (h.ready task)

end Tries

theorem tries_removeAttempt (host : Host) (transport : Transport) :
    host.Tries (host.removeAttempt transport) :=
  { Tries.refl host with attempts := List.filter_sublist.map _ }

theorem tries_putAttempt (host : Host) (attempt : Attempt) : host.Tries (host.putAttempt attempt) :=
  { Tries.refl host with attempts := host.transports_putAttempt attempt ▸ .refl _ }

theorem tries_finishAttempt (host : Host) (attempt : Attempt)
    (outcome : Except OpeningError ReceiveBuffer) :
    host.Tries (host.finishAttempt attempt outcome) := by
  refine (host.tries_removeAttempt attempt.transport).trans ?_
  generalize hleft : host.removeAttempt attempt.transport = left
  cases outcome with
  | error error =>
    have hreport : left.Tries (((left.count (.error .handshake)).report
        (.openingFailed error attempt.peer)).release attempt.transport) :=
      { Tries.refl left with accepts := left.errorCount_count_of_ne nofun }
    simpa only [finishAttempt, hleft] using hreport
  | ok leftover =>
    let completion : Completion := .registered attempt.transport attempt.peer leftover
    have hcomplete : left.Tries (left.complete completion) := by
      by_cases hrunning : left.running = true
      · obtain ⟨more, hmore⟩ := left.exists_complete hrunning completion
        rw [hmore]
        exact { Tries.refl left with ready := fun _ hmem => List.mem_append_left _ hmem }
      · rw [left.complete_of_not_running hrunning]
        exact { Tries.refl left with }
    simpa only [finishAttempt, hleft] using hcomplete

/-- When an attempt is over there is none on its stream any more. -/
theorem attempts_finishAttempt (host : Host) (attempt : Attempt)
    (outcome : Except OpeningError ReceiveBuffer) :
    (host.finishAttempt attempt outcome).attempts =
      host.attempts.filter (·.transport ≠ attempt.transport) := by
  cases outcome with
  | error error => rfl
  | ok leftover =>
    let left := host.removeAttempt attempt.transport
    let completion : Completion := .registered attempt.transport attempt.peer leftover
    show (left.complete completion).attempts = left.attempts
    by_cases hrunning : left.running = true
    · obtain ⟨more, hmore⟩ := left.exists_complete hrunning completion
      rw [hmore]
    · rw [left.complete_of_not_running hrunning]
      rfl

theorem tries_openingTurn (host : Host) (transport : Transport) :
    host.Tries (host.openingTurn transport).1 := by
  have hpart := host.openingPart transport
  have hlink (f : Link → Link) : host.Tries (host.changeLink transport f) :=
    { Tries.refl host with }
  generalize host.openingTurn transport = outcome at hpart
  cases hpart with
  | rests => exact .refl host
  | looks => exact { Tries.refl host with }
  | abandons => exact { host.tries_removeAttempt transport with }
  | moves => exact (hlink _).trans (tries_putAttempt _ _)
  | waits => exact hlink _
  | @setsClock attempt link deadline =>
    let changed := host.changeLink transport fun _ => link
    have hset : changed.Tries (changed.setTimer ⟨deadline, .opening transport⟩) :=
      { Tries.refl changed with }
    exact (hlink _).trans (hset.trans (tries_putAttempt _ _))
  | ends outcome => exact (hlink _).trans (tries_finishAttempt _ _ outcome)

theorem shutdown_acceptorTurn (host : Host) : host.acceptorTurn.1.shutdown = host.shutdown := by
  have hpart := host.acceptorPart
  generalize host.acceptorTurn = outcome at hpart
  cases hpart with
  | ends => exact host.endAccepting_eq.shutdown
  | accepts => exact (aside_wake _ _).shutdown
  | looks | asks | fails | resumes | idles => rfl

theorem current_acceptorTurn (host : Host) : host.acceptorTurn.1.current = host.current := by
  have hpart := host.acceptorPart
  generalize host.acceptorTurn = outcome at hpart
  cases hpart with
  | ends => exact host.endAccepting_eq.current
  | accepts => exact (aside_wake _ _).current
  | looks | asks | fails | resumes | idles => rfl

theorem current_retire (host : Host) : host.retire.current = host.current := by
  obtain ⟨host₁, hserves, hretire⟩ := host.retire_eq
  rw [hretire, refuse]
  split
  · exact hserves.current
  · exact (aside_wakeAll _ _).current.trans hserves.current

/-! ## The line -/

structure Roused (host : Host) : Prop where
  openings : ∀ transport ∈ host.attempts.map (·.transport), host.Awake (.opening transport)
  acceptor : host.acceptor.phase ≠ .ended → host.Awake .acceptor

namespace Roused

/-- Tasks may end, and others stay awake. -/
theorem fewer (h : host.Roused)
    (hattempts : (host'.attempts.map (·.transport)).Sublist (host.attempts.map (·.transport)))
    (hacceptor : host'.acceptor.phase ≠ .ended → host.acceptor.phase ≠ .ended)
    (hawake : ∀ task, task ≠ .clients → host.Awake task → host'.Awake task) : host'.Roused where
  openings transport hmem := hawake _ nofun (h.openings transport (hattempts.subset hmem))
  acceptor hleft := hawake _ nofun (h.acceptor (hacceptor hleft))

theorem welcomes (h : host.Roused) (hwelcomes : host.Welcomes mails host') : host'.Roused :=
  h.fewer (hwelcomes.attempts ▸ .refl _) (hwelcomes.acceptor ▸ id)
    fun _ hother => hwelcomes.toAside.awake hother

/-- When a turn is over, its task may have ended; the others stand in line. -/
theorem rest (h : host.Roused) {task : Task} (hcurrent : host.current = some task)
    (hopenings : ∀ transport ∈ host.attempts.map (·.transport), task ≠ .opening transport)
    (hacceptor : host.acceptor.phase ≠ .ended → task ≠ .acceptor) : host.endTurn.Roused := by
  have hline {other : Task} (hne : task ≠ other) (hawake : host.Awake other) : other ∈ host.ready :=
    hawake.resolve_left fun heq => hne (Option.some.inj (hcurrent.symm.trans heq))
  exact {
    openings := fun transport hmem =>
      .inr (hline (hopenings transport hmem) (h.openings transport hmem))
    acceptor := fun hleft => .inr (hline (hacceptor hleft) (h.acceptor hleft)) }

/-- A task that can go on stands in line again when its turn is over. -/
theorem defer (h : host.Roused) {task : Task} (hcurrent : host.current = some task) :
    (host.endTurn.wake task).Roused := by
  have hwake := host.endTurn.serves_wake task
  refine h.fewer (hwake.attempts ▸ .refl _) (hwake.acceptor ▸ id) fun other hother hawake => ?_
  rcases hawake with hturn | hmem
  · obtain rfl := Option.some.inj (hcurrent.symm.trans hturn)
    exact host.endTurn.awake_wake task
  · exact hwake.toAside.awake hother (.inr hmem)

end Roused

theorem shutdown_refuse (host : Host) : host.refuse.shutdown = true := by
  unfold refuse
  split
  · assumption
  · exact (aside_wakeAll _ _).shutdown

/-- When clients are to be kept out, the tasks that let them in are told. -/
theorem roused_refuse (h : host.shutdown = true → host.Roused) : host.refuse.Roused := by
  unfold refuse
  split
  · rename_i hshut
    exact h hshut
  · let tasks : List Task :=
      .acceptor :: host.attempts.map fun attempt => Task.opening attempt.transport
    have hserves := serves_wakeAll { host with shutdown := true } tasks
    constructor
    · intro transport hmem
      rw [hserves.attempts] at hmem
      obtain ⟨attempt, hattempt, rfl⟩ := List.mem_map.mp hmem
      exact awake_wakeAll _ nofun (List.mem_cons_of_mem _ (List.mem_map_of_mem hattempt))
    · intro _
      exact awake_wakeAll _ nofun List.mem_cons_self

/-- A host that is to let nobody in has told the tasks that let clients in. -/
structure Poised (host : Host) : Prop where
  roused : host.shutdown = true → host.Roused
  /-- When its engine has ended it lets nobody in. -/
  finished : host.running = false → host.Barred
  /-- Only a task that has its turn has found that it may let in a client. -/
  looked : host.cleared = true → ∃ task, host.current = some task ∧ admitting task = true
  /-- Nothing waits for an acceptor that has ended. -/
  ended : host.acceptor.phase = .ended → host.arrivals = []

namespace Poised

/-- Clients may come as long as there is somebody to accept them. -/
theorem welcomes (h : host.Poised) (hwelcomes : host.Welcomes mails host')
    (harrivals : host.acceptor.phase = .ended → host'.arrivals = host.arrivals) : host'.Poised where
  roused hshut := (h.roused (hwelcomes.shutdown.symm.trans hshut)).welcomes hwelcomes
  finished hover := by
    have hbarred := h.finished (hwelcomes.running.symm.trans hover)
    exact ⟨hwelcomes.shutdown.trans hbarred.shutdown, hwelcomes.cleared.trans hbarred.cleared⟩
  looked hcleared := by
    rw [hwelcomes.current]
    exact h.looked (hwelcomes.cleared.symm.trans hcleared)
  ended hended := by
    rw [hwelcomes.acceptor] at hended
    exact (harrivals hended).trans (h.ended hended)

theorem serves (h : host.Poised) (hserves : host.Serves mails host') : host'.Poised :=
  h.welcomes hserves.toWelcomes fun _ => hserves.arrivals

/-- It is the turn of a task that does not let clients in. -/
theorem cleared_of_other (h : host.Poised) {task : Task} (hcurrent : host.current = some task)
    (hother : admitting task = false) : host.cleared = false := by
  by_contra hcleared
  obtain ⟨admits, hturn, hadmitting⟩ := h.looked (Bool.not_eq_false _ ▸ hcleared)
  obtain rfl := Option.some.inj (hcurrent.symm.trans hturn)
  exact absurd (hother.symm.trans hadmitting) nofun

theorem refuse (h : host.Poised) : host.refuse.Poised := by
  have hfelt : host.refuse.cleared = host.cleared ∧ host.refuse.current = host.current ∧
      host.refuse.acceptor = host.acceptor ∧ host.refuse.arrivals = host.arrivals := by
    unfold Host.refuse
    split
    · exact ⟨rfl, rfl, rfl, rfl⟩
    · have hwake := serves_wakeAll { host with shutdown := true }
        (.acceptor :: host.attempts.map fun attempt => Task.opening attempt.transport)
      exact ⟨hwake.cleared, hwake.current, hwake.acceptor, hwake.arrivals⟩
  obtain ⟨hcleared, hcurrent, hacceptor, harrivals⟩ := hfelt
  exact {
    roused := fun _ => roused_refuse h.roused
    finished := fun hover => by
      have hbarred := h.finished (host.unfelt_refuse.running.symm.trans hover)
      exact ⟨host.shutdown_refuse, hcleared.trans hbarred.cleared⟩
    looked := fun hlooked => by
      rw [hcurrent]
      exact h.looked (hcleared.symm.trans hlooked)
    ended := fun hended => by
      rw [hacceptor] at hended
      exact harrivals.trans (h.ended hended) }

/-- The engine ends in a turn of its own, in which no task lets a client in. -/
theorem retire (h : host.Poised) (hcleared : host.cleared = false) : host.retire.Poised := by
  obtain ⟨host₁, hserves, hretire⟩ := host.retire_eq
  -- Once the host is to let nobody in, an engine that has ended is as it should be.
  by_cases hopen : host₁.shutdown = true
  · have hclosed : host.closed.Poised := {
      roused := fun hshut => ⟨(h.roused hshut).openings, (h.roused hshut).acceptor⟩
      finished := fun _ => ⟨hserves.shutdown.symm.trans hopen, hcleared⟩
      looked := h.looked
      ended := h.ended }
    rw [hretire]
    exact (hclosed.serves hserves).refuse
  · let tasks : List Task :=
      .acceptor :: host₁.attempts.map fun attempt => Task.opening attempt.transport
    have hwake := serves_wakeAll { host₁ with shutdown := true } tasks
    have hroused : host₁.refuse.Roused := roused_refuse fun hshut => absurd hshut hopen
    have hrefuse : host₁.refuse = { host₁ with shutdown := true }.wakeAll tasks := if_neg hopen
    rw [hretire]
    exact {
      roused := fun _ => hroused
      finished := fun _ => by
        rw [hrefuse]
        exact ⟨hwake.shutdown, hwake.cleared.trans (hserves.cleared.trans hcleared)⟩
      looked := fun hlooked => by
        rw [hrefuse, hwake.cleared] at hlooked
        exact absurd (hlooked.symm.trans (hserves.cleared.trans hcleared)) nofun
      ended := fun hended => by
        rw [hrefuse] at hended ⊢
        rw [hwake.acceptor] at hended
        exact hwake.arrivals.trans
          (hserves.arrivals.trans (h.ended (hserves.acceptor.symm ▸ hended))) }

theorem endTurn (h : host.Poised) (hrest : host.shutdown = true → host.endTurn.Roused) :
    host.endTurn.Poised where
  roused := hrest
  finished hover := ⟨(h.finished hover).shutdown, rfl⟩
  looked := nofun
  ended := h.ended

end Poised

/-! ## Giving turns -/

theorem awake_give (hnone : host.current = none) (given : Task) {task : Task}
    (hawake : host.Awake task) : (host.give given).Awake task := by
  have hline : task ∈ host.ready :=
    hawake.resolve_left fun hcurrent => absurd (hnone.symm.trans hcurrent) nofun
  by_cases heq : given = task
  · exact .inl (congrArg some heq)
  · exact .inr ((List.mem_erase_of_ne (Ne.symm heq)).mpr hline)

theorem awake_beginRound (hnone : host.current = none) {task : Task} (hother : task ≠ .clients)
    (hawake : host.Awake task) : host.beginRound.Awake task := by
  have haside := aside_wake { host with pacing := .rounds turnsPerRound } .clients
  have hwake := haside.awake hother hawake
  unfold beginRound
  dsimp only
  split
  · exact awake_give (haside.current.trans hnone) .engine hwake
  · exact hwake

theorem awake_giveNext (hnone : host.current = none) {task : Task} (hother : task ≠ .clients)
    (hawake : host.Awake task) : host.giveNext.Awake task := by
  unfold giveNext
  split
  · split
    · exact hawake
    · exact awake_give hnone _ hawake
  · split
    · rename_i left given _ _
      have hsame : { host with pacing := .rounds left }.Awake task := hawake
      exact awake_give hnone _ hsame
    · exact awake_beginRound hnone hother hawake

/-- What part of a task's turn leaves: if the turn is over, nobody misses the task. -/
structure Leaves (task : Task) (outcome : Host × TurnEnd) : Prop where
  poised : outcome.1.Poised
  current : outcome.1.current = some task
  rest : outcome.2 = .waiting → outcome.1.shutdown = true → outcome.1.endTurn.Roused

/-- The task has no part in letting clients in. -/
theorem Poised.leaves (h : host.Poised) {task : Task} (hcurrent : host.current = some task)
    (hother : admitting task = false) (ending : TurnEnd) : Leaves task (host, ending) where
  poised := h
  current := hcurrent
  rest _ hshut := by
    refine (h.roused hshut).rest hcurrent ?_ ?_
    · rintro transport - rfl
      cases hother
    · rintro - rfl
      cases hother

theorem leaves_engineTurn (h : host.Poised) (hcurrent : host.current = some .engine)
    (allowance : Nat) : Leaves .engine (host.engineTurn allowance) := by
  obtain ⟨mails, host', hserves, houtcome⟩ := host.engineTurn_cases allowance
  have hcurrent' := hserves.current.trans hcurrent
  have hpoised := h.serves hserves
  generalize host.engineTurn allowance = outcome at houtcome
  obtain ⟨last, ending⟩ := outcome
  rcases houtcome with rfl | rfl
  · exact hpoised.leaves hcurrent' rfl ending
  · exact (hpoised.retire (hpoised.cleared_of_other hcurrent' rfl)).leaves
      ((current_retire host').trans hcurrent') rfl ending

theorem leaves_acceptorTurn (h : host.Poised) (hcurrent : host.current = some .acceptor) :
    Leaves .acceptor host.acceptorTurn := by
  have hcurrent' := host.current_acceptorTurn.trans hcurrent
  have hrunning := host.unfelt_acceptorTurn.running
  have hshutdown := host.shutdown_acceptorTurn
  have hpart := host.acceptorPart
  generalize host.acceptorTurn = outcome at hpart hcurrent' hrunning hshutdown
  -- A task that has looked has its turn with an engine that takes mail.
  have hfinished (hover : outcome.1.running = false) : host.Barred :=
    h.finished (hrunning.symm.trans hover)
  have hlooked : outcome.1.cleared = true →
      ∃ task, outcome.1.current = some task ∧ admitting task = true := fun _ =>
    ⟨.acceptor, hcurrent', rfl⟩
  cases hpart with
  | looks _ hopen =>
    exact {
      poised := ⟨fun hshut => absurd (hopen.symm.trans hshut) nofun,
        fun hover => absurd (hopen.symm.trans (hfinished hover).shutdown) nofun, hlooked, h.ended⟩
      current := hcurrent'
      rest := nofun }
  | ends =>
    have hserves := host.endAccepting_eq
    have hended := host.ended_endAccepting
    have hroused (hshut : host.endAccepting.shutdown = true) : host.endAccepting.Roused :=
      (h.roused (hshutdown.symm.trans hshut)).fewer (hserves.attempts ▸ .refl _)
        (absurd hended ·) fun _ hother => hserves.toAside.awake hother
    exact {
      poised := ⟨hroused, fun hover => ⟨hshutdown.trans (hfinished hover).shutdown,
        hserves.cleared.trans (hfinished hover).cleared⟩, hlooked, fun _ => hserves.arrivals⟩
      current := hcurrent'
      rest := fun _ hshut => (hroused hshut).rest hcurrent' (fun _ _ => nofun) (absurd hended ·) }
  | asks hcleared | resumes hcleared | fails hcleared =>
    exact {
      poised := ⟨fun hshut => ⟨(h.roused hshut).openings, fun _ => .inl hcurrent⟩,
        fun hover => absurd ((hfinished hover).cleared.symm.trans hcleared) nofun, hlooked, nofun⟩
      current := hcurrent'
      rest := nofun }
  | @accepts transport peer hcleared =>
    let next : Host := { host with
      acceptor := { host.acceptor with delay := host.acceptor.backoff.initial, phase := .asking }
      arrivals := host.arrivals.tail
      attempts := host.attempts ++ [⟨transport, some peer, none, .start⟩]
      cleared := false }
    have hwake := next.serves_wake (.opening transport)
    refine ⟨⟨fun hshut => ⟨fun opened hmem => ?_, fun _ => .inl hcurrent'⟩,
      fun hover => absurd ((hfinished hover).cleared.symm.trans hcleared) nofun, hlooked,
      fun hended => ?_⟩, hcurrent', nofun⟩
    · have hattempts : opened ∈ next.attempts.map (·.transport) := hwake.attempts ▸ hmem
      rw [List.map_append, List.mem_append] at hattempts
      rcases hattempts with hold | hnew
      · have hawake := (h.roused (hshutdown.symm.trans hshut)).openings opened hold
        exact hwake.toAside.awake nofun hawake
      · obtain rfl : opened = transport := by simpa using hnew
        exact next.awake_wake _
    · exact absurd (hwake.acceptor.symm ▸ hended) nofun
  | idles =>
    refine ⟨h, hcurrent, fun hwaits hshut => ?_⟩
    exact absurd hwaits (by simp [pause, show host.shutdown = true from hshut])

theorem leaves_openingTurn (h : host.Poised)
    (hlinks : ∀ attempt ∈ host.attempts, attempt.transport < host.links.length)
    {transport : Transport} (hcurrent : host.current = some (.opening transport)) :
    Leaves (.opening transport) (host.openingTurn transport) := by
  have htries := host.tries_openingTurn transport
  have hrunning := (host.unfelt_openingTurn transport).running
  have hpart := host.openingPart transport
  generalize host.openingTurn transport = outcome at hpart htries hrunning
  have hcurrent' := htries.current.trans hcurrent
  have hroused (hshut : outcome.1.shutdown = true) : outcome.1.Roused :=
    (h.roused (htries.shutdown.symm.trans hshut)).fewer htries.attempts (htries.acceptor ▸ id)
      fun _ _ => htries.awake
  have hfinished (hover : outcome.1.running = false) : host.Barred :=
    h.finished (hrunning.symm.trans hover)
  have hpoised (hbarred : host.Barred → outcome.1.Barred) : outcome.1.Poised := {
    roused := hroused
    finished := fun hover => hbarred (hfinished hover)
    looked := fun _ => ⟨_, hcurrent', rfl⟩
    ended := fun hended => by
      rw [htries.acceptor] at hended
      exact htries.arrivals.trans (h.ended hended) }
  have hgone (hnone : transport ∉ outcome.1.attempts.map (·.transport))
      (hshut : outcome.1.shutdown = true) : outcome.1.endTurn.Roused := by
    refine (hroused hshut).rest hcurrent' ?_ nofun
    rintro opened hmem heq
    obtain rfl := Task.opening.inj heq
    exact hnone hmem
  cases hpart with
  | rests hnone =>
    refine ⟨h, hcurrent, fun _ => hgone fun hmem => ?_⟩
    obtain ⟨attempt, hattempt, rfl⟩ := List.mem_map.mp hmem
    exact absurd (hnone attempt hattempt rfl) (Nat.not_le_of_lt (hlinks attempt hattempt))
  | looks _ hopen =>
    exact ⟨hpoised fun hbarred => absurd (hopen.symm.trans hbarred.shutdown) nofun, hcurrent', nofun⟩
  | abandons hcleared =>
    refine ⟨hpoised fun hbarred => ⟨hbarred.shutdown, hcleared⟩, hcurrent',
      fun _ => hgone fun hmem => ?_⟩
    obtain ⟨attempt, hattempt, heq⟩ := List.mem_map.mp hmem
    exact host.not_mem_abandon transport attempt hattempt heq
  | moves hcleared =>
    exact ⟨hpoised fun hbarred => absurd (hbarred.cleared.symm.trans hcleared) nofun, hcurrent',
      nofun⟩
  | waits hcleared | setsClock hcleared =>
    refine ⟨hpoised fun hbarred => absurd (hbarred.cleared.symm.trans hcleared) nofun, hcurrent',
      fun hwaits hshut => ?_⟩
    exact absurd hwaits (by simp [pause, show host.shutdown = true from hshut])
  | @ends attempt link outcome hcleared hmem hstream =>
    refine ⟨hpoised fun hbarred => absurd (hbarred.cleared.symm.trans hcleared) nofun, hcurrent',
      fun _ => hgone fun hleft => ?_⟩
    obtain ⟨other, hother, heq⟩ := List.mem_map.mp hleft
    rw [attempts_finishAttempt] at hother
    exact absurd (heq.trans hstream.symm) (by simpa using (List.mem_filter.mp hother).2)

theorem leaves_turn (h : host.Poised)
    (hlinks : ∀ attempt ∈ host.attempts, attempt.transport < host.links.length) {task : Task}
    (hcurrent : host.current = some task) : Leaves task (host.turn task) := by
  cases task with
  | engine => exact leaves_engineTurn h hcurrent mailPerTurn
  | clients => exact h.leaves hcurrent rfl .waiting
  | acceptor => exact leaves_acceptorTurn h hcurrent
  | opening transport => exact leaves_openingTurn h hlinks hcurrent
  | reader id =>
    have hserves := host.serves_jobTurn (.reader id)
    exact (h.serves hserves).leaves (hserves.current.trans hcurrent) rfl .waiting
  | writer id =>
    have hserves := host.serves_jobTurn (.writer id)
    exact (h.serves hserves).leaves (hserves.current.trans hcurrent) rfl .waiting

theorem Poised.step (h : host.Poised)
    (hlinks : ∀ attempt ∈ host.attempts, attempt.transport < host.links.length) :
    host.step.Poised := by
  unfold Host.step
  cases hcurrent : host.current with
  | none =>
    have hawake {task : Task} : task ≠ .clients → host.Awake task → host.giveNext.Awake task :=
      awake_giveNext hcurrent
    obtain ⟨current, ready, pacing, hnext⟩ := host.giveNext_eq
    simp only [hnext] at hawake ⊢
    refine ⟨fun hshut => (h.roused hshut).fewer (.refl _) id fun _ => hawake,
      fun hover => ⟨(h.finished hover).shutdown, (h.finished hover).cleared⟩, fun hlooked => ?_,
      h.ended⟩
    obtain ⟨task, hturn, -⟩ := h.looked hlooked
    exact absurd (hcurrent.symm.trans hturn) nofun
  | some task =>
    obtain ⟨hpoised, hcurrent', hrest⟩ := leaves_turn h hlinks hcurrent
    dsimp only
    generalize host.turn task = outcome at hpoised hcurrent' hrest
    obtain ⟨host', ending⟩ := outcome
    cases ending with
    | continued => exact hpoised
    | waiting => exact hpoised.endTurn (hrest rfl)
    | deferred =>
      -- The task stands in line again, so it does not matter that it can still go on.
      have hwake := host'.endTurn.serves_wake task
      have hended (hover : (host'.endTurn.wake task).running = false) : host'.Barred :=
        hpoised.finished (hwake.running.symm.trans hover)
      exact {
        roused := fun hshut => (hpoised.roused (hwake.shutdown.symm.trans hshut)).defer hcurrent'
        finished := fun hover => ⟨hwake.shutdown.trans (hended hover).shutdown, hwake.cleared⟩
        looked := fun hlooked => absurd (hwake.cleared.symm.trans hlooked) nofun
        ended := fun hover => by
          rw [hwake.acceptor] at hover
          exact hwake.arrivals.trans (hpoised.ended hover) }

theorem Happens.poised (h : host.Happens host') (hpoised : host.Poised)
    (hlinks : ∀ attempt ∈ host.attempts, attempt.transport < host.links.length) :
    host'.Poised := by
  rcases h.kinds with rfl | rfl | hserves | ⟨hleft, hwelcomes⟩
  · exact hpoised.step hlinks
  · exact hpoised.refuse
  · exact hpoised.serves hserves
  · exact hpoised.welcomes hwelcomes fun hended => absurd hended hleft

/-! ## Hosts that there are -/

/-- The streams of the clients that are being let in, or wait to be accepted. -/
def callers (host : Host) : List Transport :=
  host.attempts.map (·.transport) ++ host.arrivals.filterMap (·.stream?)

namespace Arises

variable {settings : Settings} {application : Application} {address : String}

/-- The stream of a client that has not been let in is there, and the engine is not told of it
yet. -/
theorem not_mem_brought (h : Arises settings application address host) {transport : Transport}
    (hmem : transport ∈ host.callers) :
    transport < host.links.length ∧ transport ∉ host.brought := by
  obtain ⟨σ, s, rfl, hfollows⟩ := h.follows
  have hone := hfollows.count_le_one transport
  have hcoming : 0 < σ.host.callers.count transport := List.count_pos_iff.mpr hmem
  rw [callers, List.count_append] at hcoming
  rw [count_comers] at hone
  refine ⟨hfollows.lt_of_count_pos (by rw [count_comers]; omega), fun hbrought => ?_⟩
  have hwaits : 0 < σ.host.brought.count transport := List.count_pos_iff.mpr hbrought
  rw [brought] at hwaits
  omega

theorem attempt_lt (h : Arises settings application address host) {attempt : Attempt}
    (hmem : attempt ∈ host.attempts) : attempt.transport < host.links.length :=
  (h.not_mem_brought (List.mem_append_left _ (List.mem_map_of_mem hmem))).1

theorem poised (h : Arises settings application address host) : host.Poised := by
  induction h with
  | begin => exact ⟨nofun, nofun, nofun, fun _ => rfl⟩
  | listen =>
    have hbegin : ({ Host.new settings application address with
        acceptor := .new settings.backoff, pacing := .rounds turnsPerRound }.report
          (.listening address)).Poised := ⟨nofun, nofun, nofun, nofun⟩
    exact hbegin.serves (serves_wake _ .acceptor)
  | next harises hnext ih => exact hnext.poised ih fun _ => harises.attempt_lt

theorem shuts {later : Host} (h : Arises settings application address host)
    (hbarred : host.Barred) (hlater : host.Unfolds later) : ∃ mails, host.Shuts mails later := by
  induction hlater with
  | here => exact ⟨[], .refl hbarred⟩
  | next hbefore hnext ih =>
    obtain ⟨mails, hshuts⟩ := ih
    obtain ⟨more, hmore⟩ := hnext.shuts hshuts.toBarred fun _ => (h.unfolds hbefore).attempt_lt
    exact ⟨mails ++ more, hshuts.trans hmore⟩

end Arises

end WebSocket.Host
