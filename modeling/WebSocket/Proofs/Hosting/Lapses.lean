import WebSocket.Proofs.Hosting.Poise

/-!
# The last to get in

A task that lets clients in may have looked just before nobody was to be let in any more.  It does
not notice then until it looks again or its turn ends.  Up to there nobody is let in
(`Host.Amid`), and the part of its turn that takes it there lets in one client at most, accepts one
stream at most or counts one error (`Host.Slips`).  Then the host is barred, and no other task can
have looked, since it has its turn alone.  It gets there if its turn goes on, because a client has
only so many octets to say and to hear (`Host.leaps`).
-/

namespace WebSocket.Host

variable {host host' host'' : Host} {mails : List Mail}

/-! ## In the middle of a turn -/

/-- From one state to another of a host whose task has its turn and does not look. -/
structure Amid (host host' : Host) : Prop extends host.Works [] host' where
  shutdown : host'.shutdown = host.shutdown
  cleared : host'.cleared = host.cleared
  current : host'.current = host.current
  attempts : host'.attempts.map (·.transport) = host.attempts.map (·.transport)
  errors : ∀ kind : ErrorKind, kind.isOfEntrance = true →
    host'.errorCount kind = host.errorCount kind

theorem Welcomes.amid (h : host.Welcomes [] host') : host.Amid host' where
  toWorks := h.toWorks
  shutdown := h.shutdown
  cleared := h.cleared
  current := h.current
  attempts := h.attempts ▸ rfl
  errors := h.errors

theorem Amid.refl (host : Host) : host.Amid host := (Serves.refl host).amid

theorem Amid.trans (h : host.Amid host') (h' : host'.Amid host'') : host.Amid host'' where
  toWorks := h.toWorks.trans h'.toWorks
  shutdown := h'.shutdown.trans h.shutdown
  cleared := h'.cleared.trans h.cleared
  current := h'.current.trans h.current
  attempts := h'.attempts.trans h.attempts
  errors kind hkind := (h'.errors kind hkind).trans (h.errors kind hkind)

/-- How many parts the turn of a task may have at most until it looks again or ends, if the task has
looked. -/
def leaps (host : Host) : Nat :=
  match host.current with
  | some .acceptor => if host.acceptor.phase = .asking then 1 else 0
  | some (.opening transport) =>
    (host.attempt? transport).elim 0 (·.phase.stepsLeft host.settings.requestLimit)
  | _ => 0

theorem Welcomes.leaps (h : host.Welcomes mails host') : host'.leaps = host.leaps := by
  simp only [Host.leaps, attempt?, h.current, h.acceptor, h.attempts, h.settings]

/-! ## How it ends -/

/-- What comes of a task that has looked, when it looks again or its turn ends. -/
inductive Lapse (host host' : Host) : Prop
  /-- Nothing. -/
  | nothing : host'.attempts.map (·.transport) = host.attempts.map (·.transport) →
      host'.brought = host.brought →
      (∀ kind : ErrorKind, kind.isOfEntrance = true →
        host'.errorCount kind = host.errorCount kind) → Lapse host host'
  /-- A stream is accepted. -/
  | accepted {transport : Transport} {peer : SocketAddress} : host.current = some .acceptor →
      host.arrivals.head? = some (.stream transport peer) →
      host'.attempts = host.attempts ++ [⟨transport, some peer, none, .start⟩] →
      host'.brought = host.brought →
      (∀ kind : ErrorKind, kind.isOfEntrance = true →
        host'.errorCount kind = host.errorCount kind) → Lapse host host'
  /-- A stream cannot be accepted. -/
  | failed {fault : Fault} : host.current = some .acceptor →
      host.arrivals.head? = some (.failure fault) → host'.attempts = host.attempts →
      host'.brought = host.brought → host'.errorCount .accept = host.errorCount .accept + 1 →
      host'.errorCount .handshake = host.errorCount .handshake → Lapse host host'
  /-- The client of the task reaches the engine. -/
  | registered {transport : Transport} : host.current = some (.opening transport) →
      transport ∈ host.attempts.map (·.transport) →
      host'.attempts = host.attempts.filter (·.transport ≠ transport) →
      host'.brought = host.brought ++ [transport] →
      (∀ kind : ErrorKind, kind.isOfEntrance = true →
        host'.errorCount kind = host.errorCount kind) → Lapse host host'
  /-- The client of the task is refused. -/
  | refused {transport : Transport} : host.current = some (.opening transport) →
      transport ∈ host.attempts.map (·.transport) →
      host'.attempts = host.attempts.filter (·.transport ≠ transport) →
      host'.brought = host.brought → host'.errorCount .accept = host.errorCount .accept →
      host'.errorCount .handshake = host.errorCount .handshake + 1 → Lapse host host'

/-- A task that has looked comes to look again or to the end of its turn. -/
structure Slips (host host' : Host) : Prop extends host'.Barred where
  engine : host'.engine = host.engine
  history : host'.records.history = host.records.history
  lapse : host.Lapse host'

/-! ## Turns -/

/-- A client that is refused leaves a count and a notice. -/
theorem exists_finishAttempt (host : Host) (attempt : Attempt) (error : OpeningError) :
    ∃ links records, host.finishAttempt attempt (.error error) = { host with
        attempts := host.attempts.filter (·.transport ≠ attempt.transport)
        links := links, records := records } ∧
      records.history = host.records.history ∧
      records.metrics.value (Sample.error .accept).metric = host.errorCount .accept ∧
      records.metrics.value (Sample.error .handshake).metric = host.errorCount .handshake + 1 :=
  ⟨_, _, rfl, rfl, host.errorCount_count_of_ne nofun, Metrics.value_add_self _ _ _⟩

/-- In the middle of its turn the acceptor asks for a stream, or it comes to the end. -/
theorem amid_or_slips_acceptor (hshut : host.shutdown = true) (hlooked : host.cleared = true)
    (hcurrent : host.current = some .acceptor) :
    host.Amid host.step ∧ host.step.leaps < host.leaps ∨ host.Slips host.step := by
  have hpause : host.pause = .deferred := if_pos hshut
  have haccept : (host.count (.error .accept)).errorCount .accept = host.errorCount .accept + 1 :=
    Metrics.value_add_self _ _ _
  have hhandshake : (host.count (.error .accept)).errorCount .handshake =
      host.errorCount .handshake := host.errorCount_count_of_ne nofun
  have hpart := host.acceptorPart
  unfold Host.step
  simp only [hcurrent, turn]
  generalize host.acceptorTurn = outcome at hpart
  cases hpart with
  | looks hnot => exact absurd (hnot.symm.trans hlooked) Bool.false_ne_true
  | asks _ hphase =>
    refine .inl ⟨{ Amid.refl host with }, ?_⟩
    simp [Host.leaps, hcurrent, hphase]
  | ends =>
    obtain ⟨links, -, hends⟩ := host.exists_endAccepting
    rw [hends]
    exact .inr ⟨⟨hshut, rfl⟩, rfl, rfl, .nothing rfl rfl fun _ _ => rfl⟩
  | @accepts transport peer _ _ hfirst =>
    let next : Host := { host with
      acceptor := { host.acceptor with delay := host.acceptor.backoff.initial, phase := .asking }
      arrivals := host.arrivals.tail
      attempts := host.attempts ++ [⟨transport, some peer, none, .start⟩]
      cleared := false }
    obtain ⟨more, hmore⟩ := next.exists_wake (.opening transport)
    have hnext : next.wake (.opening transport) = { next with ready := next.ready ++ more } :=
      hmore next rfl rfl
    show _ ∨ host.Slips (next.wake (.opening transport))
    rw [hnext]
    exact .inr ⟨⟨hshut, rfl⟩, rfl, rfl, .accepted hcurrent hfirst rfl rfl fun _ _ => rfl⟩
  | @fails fault deadline _ _ hfirst =>
    exact .inr ⟨⟨hshut, rfl⟩, rfl, rfl, .failed hcurrent hfirst rfl rfl haccept hhandshake⟩
  | resumes => exact .inr ⟨⟨hshut, rfl⟩, rfl, rfl, .nothing rfl rfl fun _ _ => rfl⟩
  | idles =>
    obtain ⟨more, hmore⟩ := host.endTurn.exists_wake .acceptor
    rw [hpause]
    dsimp only
    rw [hmore _ rfl rfl]
    exact .inr ⟨⟨hshut, rfl⟩, rfl, rfl, .nothing rfl rfl fun _ _ => rfl⟩

/-- An attempt that gets on has fewer parts of its turn left. -/
theorem amid_of_moved {attempt : Attempt} {link link' : Link} {phase : Opening.Phase}
    (hcurrent : host.current = some (.opening attempt.transport))
    (hfound : host.attempt? attempt.transport = some attempt)
    (hstep : attempt.phase.step Link.medium host.settings.requestLimit link =
      (link', .moved phase)) :
    host.Amid ((host.changeLink attempt.transport fun _ => link').putAttempt
        { attempt with phase := phase }) ∧
      ((host.changeLink attempt.transport fun _ => link').putAttempt
        { attempt with phase := phase }).leaps < host.leaps := by
  let changed := host.changeLink attempt.transport fun _ => link'
  have hput : (changed.putAttempt { attempt with phase := phase }).attempt? attempt.transport =
      some { attempt with phase := phase } := attempt?_putAttempt hfound
  have hlink : host.Amid changed := (host.serves_changeLink attempt.transport _).amid
  refine ⟨hlink.trans { Amid.refl changed with
    attempts := changed.transports_putAttempt _ }, ?_⟩
  have hleaps : (changed.putAttempt { attempt with phase := phase }).leaps =
      phase.stepsLeft host.settings.requestLimit := by
    have hturn : (changed.putAttempt { attempt with phase := phase }).current =
        some (.opening attempt.transport) := hcurrent
    rw [leaps, hturn]
    dsimp only
    rw [hput]
    rfl
  have hbefore : host.leaps = attempt.phase.stepsLeft host.settings.requestLimit := by
    rw [leaps, hcurrent]
    dsimp only
    rw [hfound]
    rfl
  rw [hbefore]
  exact hleaps ▸ Opening.Phase.stepsLeft_lt hstep

/-- Nothing comes of an attempt that waits. -/
theorem slips_of_waits (hshut : host.shutdown = true) {left : Host} (transport : Transport)
    (hattempts : left.attempts.map (·.transport) = host.attempts.map (·.transport))
    (hshutdown : left.shutdown = host.shutdown) (hengine : left.engine = host.engine)
    (hcompletions : left.completions = host.completions) (hrecords : left.records = host.records) :
    host.Slips (left.endTurn.wake (.opening transport)) := by
  obtain ⟨more, hmore⟩ := left.endTurn.exists_wake (.opening transport)
  rw [hmore _ rfl rfl]
  refine ⟨⟨hshutdown.trans hshut, rfl⟩, hengine, congrArg Records.history hrecords,
    .nothing hattempts ?_ fun kind _ => ?_⟩
  · exact congrArg (List.filterMap broughtStream) hcompletions
  · exact congrArg (fun r : Records => r.metrics.value (Sample.error kind).metric) hrecords

/-- An attempt that ends brings its client to the engine, or refuses it. -/
theorem slips_finishAttempt (hshut : host.shutdown = true) (hrunning : host.running = true)
    {attempt : Attempt} (hcurrent : host.current = some (.opening attempt.transport))
    (hmem : attempt ∈ host.attempts) (link : Link) (outcome : Except OpeningError ReceiveBuffer) :
    host.Slips ((host.changeLink attempt.transport fun _ => link).finishAttempt attempt
      outcome).endTurn := by
  have hthere : attempt.transport ∈ host.attempts.map (·.transport) := List.mem_map_of_mem hmem
  let changed := host.changeLink attempt.transport fun _ => link
  cases outcome with
  | ok leftover =>
    obtain ⟨more, hmore⟩ := (changed.removeAttempt attempt.transport).exists_complete hrunning
      (.registered attempt.transport attempt.peer leftover)
    show host.Slips ((changed.removeAttempt attempt.transport).complete _).endTurn
    rw [hmore]
    refine ⟨⟨hshut, rfl⟩, rfl, rfl, .registered hcurrent hthere rfl ?_ fun _ _ => rfl⟩
    exact List.filterMap_append
  | error error =>
    obtain ⟨links, records, hfinish, hhistory, haccept, hhandshake⟩ :=
      exists_finishAttempt changed attempt error
    rw [hfinish]
    exact ⟨⟨hshut, rfl⟩, rfl, hhistory, .refused hcurrent hthere rfl rfl haccept hhandshake⟩

/-- In the middle of its turn an attempt gets on, or it comes to the end. -/
theorem amid_or_slips_opening (hshut : host.shutdown = true) (hlooked : host.cleared = true)
    (hrunning : host.running = true) {transport : Transport}
    (hcurrent : host.current = some (.opening transport)) :
    host.Amid host.step ∧ host.step.leaps < host.leaps ∨ host.Slips host.step := by
  have hpause : host.pause = .deferred := if_pos hshut
  have hpart := host.openingPart transport
  unfold Host.step
  simp only [hcurrent, turn]
  generalize host.openingTurn transport = outcome at hpart
  cases hpart with
  | looks hnot | abandons hnot => exact absurd (hnot.symm.trans hlooked) Bool.false_ne_true
  | rests => exact .inr ⟨⟨hshut, rfl⟩, rfl, rfl, .nothing rfl rfl fun _ _ => rfl⟩
  | @moves attempt link link' phase _ hattempt hstep =>
    have hfound : host.attempt? transport = some attempt := hattempt
    obtain rfl := transport_of_attempt? hfound
    exact .inl (amid_of_moved hcurrent hfound hstep)
  | waits =>
    rw [hpause]
    exact .inr (slips_of_waits hshut transport rfl rfl rfl rfl rfl)
  | setsClock =>
    rw [hpause]
    exact .inr (slips_of_waits hshut transport (transports_putAttempt _ _) rfl rfl rfl rfl)
  | @ends attempt link outcome _ hmem hstream =>
    subst hstream
    exact .inr (slips_finishAttempt hshut hrunning hcurrent hmem link outcome)

theorem Poised.amid_or_slips (h : host.Poised) (hshut : host.shutdown = true)
    (hlooked : host.cleared = true) :
    host.Amid host.step ∧ host.step.leaps < host.leaps ∨ host.Slips host.step := by
  obtain ⟨task, hcurrent, hadmitting⟩ := h.looked hlooked
  have hrunning : host.running = true := by
    by_contra hover
    have hbarred := h.finished (Bool.not_eq_true _ ▸ hover)
    exact absurd (hbarred.cleared.symm.trans hlooked) nofun
  cases task with
  | acceptor => exact amid_or_slips_acceptor hshut hlooked hcurrent
  | opening transport => exact amid_or_slips_opening hshut hlooked hrunning hcurrent
  | engine | clients | reader | writer => cases hadmitting

/-- Nothing but a step of its task brings a turn to its end, and nothing else lets anybody in. -/
theorem Happens.amid (h : host.Happens host') (hshut : host.shutdown = true) :
    host' = host.step ∨ host.Amid host' ∧ host'.leaps = host.leaps := by
  rcases h.kinds with hstep | rfl | hserves | ⟨-, hwelcomes⟩
  · exact .inl hstep
  · rw [refuse_of_shutdown hshut]
    exact .inr ⟨.refl host, rfl⟩
  · exact .inr ⟨hserves.amid, hserves.leaps⟩
  · exact .inr ⟨hwelcomes.amid, hwelcomes.leaps⟩

/-! ## Whatever happens meanwhile -/

variable {settings : Settings} {application : Application} {address : String} {later : Host}

/-- A task that has looked still has its turn, or it has come to the end of it. -/
theorem Arises.amid_or_slips (h : Arises settings application address host)
    (hshut : host.shutdown = true) (hlooked : host.cleared = true) (hlater : host.Unfolds later) :
    host.Amid later ∨ ∃ last, host.Unfolds last ∧ host.Amid last ∧ last.Slips last.step ∧
      last.step.Unfolds later := by
  induction hlater with
  | here => exact .inl (.refl host)
  | @next last next hbefore hnext ih =>
    rcases ih with hamid | ⟨last, hbefore, hamid, hslips, hsince⟩
    · have hshut' := hamid.shutdown.trans hshut
      rcases hnext.amid hshut' with rfl | ⟨hmore, -⟩
      · have hpoised := (h.unfolds hbefore).poised
        rcases hpoised.amid_or_slips hshut' (hamid.cleared.trans hlooked) with ⟨hmore, -⟩ | hslips
        · exact .inl (hamid.trans hmore)
        · exact .inr ⟨last, hbefore, hamid, hslips, .here⟩
      · exact .inl (hamid.trans hmore)
    · exact .inr ⟨last, hbefore, hamid, hslips, hsince.next hnext⟩

/-- From some time on a host is as it is from the beginning of a later chronicle. -/
theorem Chronicle.shift {run : Nat → Host} (h : Chronicle run) (n : Nat) :
    Chronicle fun k => run (n + k) where
  happens k := h.happens (n + k)
  fair k task hawake := by
    obtain ⟨later, hle, hturn⟩ := h.fair (n + k) task hawake
    refine ⟨later - n, by omega, ?_⟩
    have hsame : n + (later - n) = later := by omega
    have hnext : n + (later - n + 1) = later + 1 := by omega
    simp only [hsame, hnext]
    exact hturn

/-- A task that has looked takes the next part of its turn some time, and nothing has come of it
before. -/
theorem Arises.exists_part {run : Nat → Host} (h : Arises settings application address (run 0))
    (hshut : (run 0).shutdown = true) (hlooked : (run 0).cleared = true) (hrun : Chronicle run) :
    ∃ n, (run 0).Amid (run n) ∧ (run n).leaps = (run 0).leaps ∧ run (n + 1) = (run n).step := by
  have huntil (n : Nat) :
      (∃ m, (run 0).Amid (run m) ∧ (run m).leaps = (run 0).leaps ∧ run (m + 1) = (run m).step) ∨
        (run 0).Amid (run n) ∧ (run n).leaps = (run 0).leaps := by
    induction n with
    | zero => exact .inr ⟨.refl _, rfl⟩
    | succ n ih =>
      rcases ih with hdone | ⟨hamid, hleaps⟩
      · exact .inl hdone
      · rcases (hrun.happens n).amid (hamid.shutdown.trans hshut) with hstep | ⟨hmore, hsame⟩
        · exact .inl ⟨n, hamid, hleaps, hstep⟩
        · exact .inr ⟨hamid.trans hmore, hsame.trans hleaps⟩
  obtain ⟨task, hcurrent, -⟩ := h.poised.looked hlooked
  obtain ⟨later, -, -, hstep⟩ := hrun.fair 0 task (.inl hcurrent)
  rcases huntil later with hdone | ⟨hamid, hleaps⟩
  · exact hdone
  · exact ⟨later, hamid, hleaps, hstep⟩

/-- If every task gets its turn some time, the host is barred some time. -/
theorem Arises.exists_barred {run : Nat → Host} (h : Arises settings application address (run 0))
    (hshut : (run 0).shutdown = true) (hrun : Chronicle run) : ∃ n, (run n).Barred := by
  -- Each part of the turn of the task that has looked leaves fewer.
  induction hleft : (run 0).leaps using Nat.strong_induction_on generalizing run with
  | _ left ih =>
  cases hlooked : (run 0).cleared with
  | false => exact ⟨0, hshut, hlooked⟩
  | true =>
    obtain ⟨n, hamid, hleaps, hstep⟩ := h.exists_part hshut hlooked hrun
    have hshut' := hamid.shutdown.trans hshut
    have harises := h.unfolds (hrun.unfolds (Nat.zero_le n))
    rcases harises.poised.amid_or_slips hshut' (hamid.cleared.trans hlooked) with
      ⟨hmore, hless⟩ | hslips
    · rw [← hstep] at hmore hless
      rw [hleaps, hleft] at hless
      have hafter := h.unfolds (hrun.unfolds (Nat.zero_le (n + 1)))
      obtain ⟨m, hbarred⟩ := ih _ hless hafter (hmore.shutdown.trans hshut')
        (hrun.shift (n + 1)) rfl
      exact ⟨n + 1 + m, hbarred⟩
    · exact ⟨n + 1, hstep ▸ hslips.toBarred⟩

end WebSocket.Host
