import WebSocket.Proofs.Hosting.Draining
import WebSocket.Proofs.Hosting.Lapses

/-!
# Keeping clients out

When a host is to let nobody in, every task that lets clients in can go on, the acceptor also in the
middle of a pause, and it ends when it next looks.  What one of them has found before may let in a
client after all (`Host.Slips`); from then on nobody is let in (`Host.KeptOut`).  The engine lets go
of what reaches it when all sessions have been told to end.  So once the engine has ended too,
nothing is told any more, and nothing is left when the tasks have had their turns
(`Host.Arises.keepsOut`).
-/

namespace WebSocket.Host

variable {host host' : Host}

/-- Nobody is being let in, and nobody will be. -/
structure Deserted (host : Host) : Prop where
  attempts : host.attempts = []
  acceptor : host.acceptor.phase = .ended
  arrivals : host.arrivals = []

/-- What may have become of a barred host. -/
structure KeptOut (host later : Host) : Prop extends later.Barred where
  /-- No stream is accepted or asked for. -/
  attempts : later.attempts.Sublist host.attempts
  asked : later.records.asked = host.records.asked
  /-- The engine may have handled some mail, but the clients that had not been let in never reach
  it. -/
  engine : ∃ mails, later.engine = (host.engine.run mails).1 ∧
    later.records.history = (told (host.engine.run mails).2).reverse ++ host.records.history ∧
    ∀ transport ∈ host.callers, transport ∉ later.brought ∧
      ∀ mail ∈ mails, mail.stream? ≠ some transport
  errors : later.errorCount .handshake = host.errorCount .handshake ∧
    later.errorCount .accept = host.errorCount .accept
  /-- The task of a client that is still being let in can go on, and ends with its turn. -/
  openings : ∀ attempt ∈ later.attempts, later.Awake (.opening attempt.transport) ∧
    later.openingTurn attempt.transport = (later.abandon attempt.transport, .waiting)
  /-- So does the acceptor, whether it pauses or not, and what waits for it is let go. -/
  acceptor : (later.acceptor.phase ≠ .ended → later.Awake .acceptor) ∧
    later.acceptorTurn = (later.endAccepting, .waiting) ∧
    later.endAccepting.acceptor.phase = .ended ∧ later.endAccepting.arrivals = []
  ended : host.acceptor.phase = .ended → later.acceptor.phase = .ended
  gone : later.acceptor.phase = .ended → later.arrivals = []
  idle : later.isIdle = true → later.Deserted

/-- What may have become of a host whose sessions have all been told to end. -/
structure Hushed (host later : Host) : Prop where
  /-- The application is told nothing any more. -/
  history : later.records.history = host.records.history
  /-- A stream that has been let in is let go when the engine comes to it. -/
  letsGo : ∀ transport peer leftover,
    later.handle (.completion (.registered transport peer leftover)) = later.release transport

/-- A host lets nobody in when it is not to. -/
structure KeepsOut (host : Host) : Prop where
  barred : host.Barred → ∀ later, host.Unfolds later → host.KeptOut later
  /-- Only one task can have looked before, that which has its turn.  When it next looks or its turn
  ends, it has let in one client, accepted one stream or counted one error at most, and the host is
  barred. -/
  looked : host.shutdown = true → host.cleared = true →
    (∃ task, host.current = some task ∧ admitting task = true) ∧
    ∀ later, host.Unfolds later → host.Amid later ∨
      ∃ last, host.Unfolds last ∧ host.Amid last ∧ last.Slips last.step ∧
        last.step.Unfolds later ∧ last.step.KeptOut later
  /-- All tasks that let clients in end, if each gets its turn some time. -/
  ends : host.shutdown = true → ∀ run, Chronicle run → run 0 = host →
    ∃ n, ∀ later ≥ n, (run later).Deserted
  closed : host.engine.stopping = true → ∀ later, host.Unfolds later → host.Hushed later
  /-- When the engine has ended, nobody is let in, no operation is left, and nothing is told any
  more. -/
  finished : host.running = false → host.Barred ∧ ∀ later, host.Unfolds later →
    later.running = false ∧ later.jobs = [] ∧ later.records.history = host.records.history

namespace Arises

variable {settings : Settings} {application : Application} {address : String} {later : Host}

theorem keptOut (h : Arises settings application address host) (hbarred : host.Barred)
    (hlater : host.Unfolds later) : host.KeptOut later := by
  obtain ⟨mails, hshuts⟩ := h.shuts hbarred hlater
  have harises := h.unfolds hlater
  obtain ⟨hopenings, hacceptor⟩ := harises.poised.roused hshuts.shutdown
  have hended := later.endAccepting_eq
  exact {
    toBarred := hshuts.toBarred
    attempts := hshuts.attempts
    asked := hshuts.asked
    engine := by
      refine ⟨mails, hshuts.engine, hshuts.history, fun transport hmem => ?_⟩
      obtain ⟨hlt, hnone⟩ := h.not_mem_brought hmem
      refine ⟨fun hwaits => ?_, fun mail hmail hstream => ?_⟩
      · exact (hshuts.brought _ hwaits).elim hnone (Nat.not_le_of_lt hlt)
      · exact (hshuts.mails mail hmail _ hstream).elim hnone (Nat.not_le_of_lt hlt)
    errors := ⟨hshuts.errors .handshake rfl, hshuts.errors .accept rfl⟩
    openings := fun attempt hmem =>
      ⟨hopenings attempt.transport (List.mem_map_of_mem hmem),
        openingTurn_of_mem hshuts.shutdown hshuts.cleared (fun _ => harises.attempt_lt) hmem⟩
    acceptor := ⟨hacceptor, acceptorTurn_of_shutdown hshuts.shutdown hshuts.cleared,
      later.ended_endAccepting, hended.arrivals⟩
    ended := fun hphase => hshuts.acceptor.elim (fun hsame => hsame ▸ hphase) id
    gone := harises.poised.ended
    idle := by
      intro hidle
      rw [isIdle, Bool.and_eq_true, Option.isNone_iff_eq_none, List.all_eq_true] at hidle
      -- Whatever lets clients in would stand in line.
      have hasleep (task : Task) (hother : task ≠ .clients) : ¬ later.Awake task := by
        rintro (hcurrent | hmem)
        · exact absurd (hidle.1.symm.trans hcurrent) nofun
        · exact hother (of_decide_eq_true (hidle.2 task hmem))
      have hphase : later.acceptor.phase = .ended := by
        by_contra hleft
        exact hasleep .acceptor nofun (hacceptor hleft)
      refine ⟨?_, hphase, harises.poised.ended hphase⟩
      rw [List.eq_nil_iff_forall_not_mem]
      intro attempt hmem
      exact hasleep (.opening attempt.transport) nofun
        (hopenings attempt.transport (List.mem_map_of_mem hmem)) }

/-- An attempt is gone when it has had its turn. -/
theorem gone_of_turn (h : Arises settings application address host) (hbarred : host.Barred)
    {transport : Transport} (hturn : host.current = some (.opening transport)) :
    ∀ attempt ∈ host.step.attempts, attempt.transport ≠ transport := by
  unfold Host.step
  rw [hturn]
  rcases openingTurn_of_shutdown hbarred.shutdown hbarred.cleared (fun _ => h.attempt_lt)
    transport with hends | ⟨hsame, hnone⟩
  · simp only [turn, hends]
    exact host.not_mem_abandon transport
  · simp only [turn, hsame]
    exact hnone

theorem acceptor_of_turn (hbarred : host.Barred) (hturn : host.current = some .acceptor) :
    host.step.acceptor.phase = .ended := by
  unfold Host.step
  simp only [hturn, turn, acceptorTurn_of_shutdown hbarred.shutdown hbarred.cleared]
  exact host.ended_endAccepting

section Chronicles

variable {run : Nat → Host}

/-- Once a host is barred it stays so. -/
theorem barred_at (h : Arises settings application address (run 0)) (hbarred : (run 0).Barred)
    (hrun : Chronicle run) (n : Nat) :
    Arises settings application address (run n) ∧ (run n).Barred := by
  have hunfolds : (run 0).Unfolds (run n) := hrun.unfolds (Nat.zero_le n)
  exact ⟨h.unfolds hunfolds, (h.keptOut hbarred hunfolds).toBarred⟩

/-- Attempts go one by one, each with its turn. -/
theorem attempts_end (h : Arises settings application address (run 0))
    (hbarred : (run 0).Barred) (hrun : Chronicle run) (attempts : List Attempt)
    (hsome : ∀ attempt ∈ attempts, attempt ∈ (run 0).attempts) :
    ∃ n, ∀ later ≥ n, ∀ attempt ∈ attempts, ∀ left ∈ (run later).attempts,
      left.transport ≠ attempt.transport := by
  -- Attempts that are gone do not come back, so the latest of their turns is late enough.
  induction attempts with
  | nil => exact ⟨0, fun _ _ _ hmem => absurd hmem List.not_mem_nil⟩
  | cons attempt attempts ih =>
    obtain ⟨n, hn⟩ := ih fun other hmem => hsome other (List.mem_cons_of_mem _ hmem)
    have hawake := (h.poised.roused hbarred.shutdown).openings attempt.transport
      (List.mem_map_of_mem (hsome attempt List.mem_cons_self))
    obtain ⟨m, -, hturn, hstep⟩ := hrun.fair 0 _ hawake
    obtain ⟨harises, hbarred'⟩ := h.barred_at hbarred hrun m
    have hgone := harises.gone_of_turn hbarred' hturn
    rw [← hstep] at hgone
    refine ⟨max n (m + 1), fun later hlater other hmem left hleft => ?_⟩
    rcases List.mem_cons.mp hmem with rfl | hmem
    · obtain ⟨hafter, hbarred''⟩ := h.barred_at hbarred hrun (m + 1)
      have hsince : (run (m + 1)).Unfolds (run later) := hrun.unfolds (by omega)
      have hkept := hafter.keptOut hbarred'' hsince
      exact hgone left (hkept.attempts.subset hleft)
    · exact hn later (by omega) other hmem left hleft

theorem acceptor_ends (h : Arises settings application address (run 0))
    (hbarred : (run 0).Barred) (hrun : Chronicle run) : ∃ n, (run n).acceptor.phase = .ended := by
  by_cases hphase : (run 0).acceptor.phase = .ended
  · exact ⟨0, hphase⟩
  · obtain ⟨n, -, hturn, hstep⟩ :=
      hrun.fair 0 _ ((h.poised.roused hbarred.shutdown).acceptor hphase)
    exact ⟨n + 1, hstep ▸ acceptor_of_turn (h.barred_at hbarred hrun n).2 hturn⟩

theorem deserted_of_barred (h : Arises settings application address (run 0))
    (hbarred : (run 0).Barred) (hrun : Chronicle run) :
    ∃ n, ∀ later ≥ n, (run later).Deserted := by
  obtain ⟨n, hn⟩ := h.attempts_end hbarred hrun (run 0).attempts fun _ hmem => hmem
  obtain ⟨m, hphase⟩ := h.acceptor_ends hbarred hrun
  obtain ⟨harises, hbarred'⟩ := h.barred_at hbarred hrun m
  refine ⟨max n m, fun later hlater => ?_⟩
  have hsince : (run m).Unfolds (run later) := hrun.unfolds (by omega)
  have hkept := harises.keptOut hbarred' hsince
  refine ⟨?_, hkept.ended hphase, hkept.gone (hkept.ended hphase)⟩
  rw [List.eq_nil_iff_forall_not_mem]
  intro left hleft
  have hmem := (h.keptOut hbarred (hrun.unfolds (Nat.zero_le later))).attempts.subset hleft
  exact hn later (by omega) left hmem left hleft rfl

theorem ends (h : Arises settings application address (run 0)) (hshut : (run 0).shutdown = true)
    (hrun : Chronicle run) : ∃ n, ∀ later ≥ n, (run later).Deserted := by
  obtain ⟨m, hbarred⟩ := h.exists_barred hshut hrun
  have harises := h.unfolds (hrun.unfolds (Nat.zero_le m))
  obtain ⟨n, hn⟩ := harises.deserted_of_barred hbarred (hrun.shift m)
  refine ⟨m + n, fun later hlater => ?_⟩
  have hdeserted := hn (later - m) (by omega)
  rwa [Nat.add_sub_cancel' (by omega : m ≤ later)] at hdeserted

end Chronicles

/-- What has become of the engine and the application is what some mail has made of them. -/
theorem hears (hlater : host.Unfolds later) : ∃ mails, host.Hears mails later := by
  induction hlater with
  | here => exact ⟨[], rfl, rfl⟩
  | next _ hnext ih =>
    obtain ⟨mails, hhears⟩ := ih
    obtain ⟨more, hmore⟩ := hnext.hears
    exact ⟨mails ++ more, hhears.trans hmore⟩

theorem hushed (h : Arises settings application address host)
    (hstopping : host.engine.stopping = true) (hlater : host.Unfolds later) :
    host.Hushed later := by
  obtain ⟨σ, s, rfl, hfollows⟩ := h.follows
  obtain ⟨mails, hengine, hhistory⟩ := hears hlater
  have hreached := hfollows.reached
  rw [hfollows.engine] at hstopping hengine hhistory
  obtain ⟨hshut, htold⟩ :=
    Engine.still_run hreached.numbered (hreached.shut_of_stopping hstopping) mails
  refine ⟨?_, fun transport peer leftover => ?_⟩
  · rw [hhistory, htold]
    rfl
  · have hrefused := Engine.register_of_stopping hshut.stopping transport peer leftover
    rw [← hengine] at hrefused
    simp only [handle, Engine.dispatch, hrefused]
    rfl

theorem finished (h : Arises settings application address host) (hover : host.running = false)
    (hlater : host.Unfolds later) :
    later.running = false ∧ later.jobs = [] ∧
      later.records.history = host.records.history := by
  obtain ⟨mails, hshuts⟩ := h.shuts (h.poised.finished hover) hlater
  have hover' : later.running = false := by
    rw [← Bool.not_eq_true]
    exact fun hrunning => Bool.false_ne_true (hover.symm.trans (hshuts.running hrunning))
  have hstopping : host.engine.stopping = true := by
    obtain ⟨σ, s, rfl, hfollows⟩ := h.follows
    exact (Bool.and_eq_true_iff.mp (hfollows.finished hover)).1
  refine ⟨hover', ?_, (h.hushed hstopping hlater).history⟩
  obtain ⟨σ, s, rfl, hfollows⟩ := (h.unfolds hlater).follows
  have hnone := hfollows.tickets_nil (hfollows.finished hover')
  rw [tickets, List.append_eq_nil_iff, List.map_eq_nil_iff] at hnone
  exact hnone.1

/-- Whatever happens to a host, and in whatever order its tasks take turns, it lets nobody in when
it is not to, but for what one task may have begun before. -/
theorem keepsOut (h : Arises settings application address host) : host.KeepsOut where
  barred hbarred _ hlater := h.keptOut hbarred hlater
  looked hshut hlooked := by
    refine ⟨h.poised.looked hlooked, fun later hlater => ?_⟩
    rcases h.amid_or_slips hshut hlooked hlater with hamid |
      ⟨last, hbefore, hamid, hslips, hsince⟩
    · exact .inl hamid
    · have harises := (h.unfolds hbefore).next .step
      exact .inr ⟨last, hbefore, hamid, hslips, hsince, harises.keptOut hslips.toBarred hsince⟩
  ends hshut _ hrun hstart := by
    subst hstart
    exact h.ends hshut hrun
  closed hstopping _ hlater := h.hushed hstopping hlater
  finished hover := ⟨h.poised.finished hover, fun _ hlater => h.finished hover hlater⟩

end Arises

/-! ## A host with many clients -/

/-- A stream has a session, one client that is being let in has said nothing and another has not
taken the whole reply, and the acceptor pauses; then the session is told to end, and another stream
is brought in. -/
def bustle (host : Host) : Host :=
  let host := (host.connect 64 []).1.settle
  let host := (host.arrive 8 ⟨.v4 127 0 0 1, 1, 0⟩).1.settle
  let host := (host.arrive 110 ⟨.v4 127 0 0 1, 2, 0⟩).1.settle
  let host := (host.clientWrite 2 sampleOctets).1.settle
  let host := (host.arriveBroken .aborted).1.settle
  let host := (host.request .closeAll).1.step.step
  (host.connect 64 []).1

theorem unfolds_bustle (host : Host) : host.Unfolds host.bustle := by
  have hopen := (Unfolds.of_happens (.connect 64 [])).trans (unfolds_settle (host.connect 64 []).1)
  have hreading := (hopen.next (.arrive 8 ⟨.v4 127 0 0 1, 1, 0⟩)).trans (unfolds_settle _)
  have hcomes := (hreading.next (.arrive 110 ⟨.v4 127 0 0 1, 2, 0⟩)).trans (unfolds_settle _)
  have hreplying := (hcomes.next (.write 2 sampleOctets)).trans (unfolds_settle _)
  have hpausing := (hreplying.next (.arriveBroken .aborted)).trans (unfolds_settle _)
  exact (((hpausing.next (.request .closeAll)).next .step).next .step).next (.connect 64 [])

/-- Such a host, from when on nobody is to be let in. -/
def crowded : Host :=
  { (serve Settings.standard (fun _ _ _ => ⟨[], none⟩) "").bustle.refuse with pacing := .even }

theorem arises_crowded :
    Arises Settings.standard (fun _ _ _ => ⟨[], none⟩) "" crowded := by
  have hserve := arises_serve Settings.standard (fun _ _ _ => ⟨[], none⟩) ""
  have hrefused := (hserve.unfolds (unfolds_bustle _)).next .refuse
  exact hrefused.next (.shuffle .even fun _ _ => .rfl)

/-- Left to itself, the host comes to rest when all its tasks have had their turns. -/
theorem chronicle_crowded : Chronicle fun n => n.repeat step crowded := by
  obtain ⟨heven, hnone, hready, hturns⟩ : ((12).repeat step crowded).pacing = .even ∧
      ((12).repeat step crowded).current = none ∧ ((12).repeat step crowded).ready = [] ∧
      ∀ n < 12, ∀ task ∈ (n.repeat step crowded).current.toList ++ (n.repeat step crowded).ready,
        ∃ later < 12, n ≤ later ∧ (later.repeat step crowded).current = some task := by
    decide +kernel
  refine chronicle_of_rest heven hnone hready fun n hlt task hawake => ?_
  have hline : task ∈ (n.repeat step crowded).current.toList ++ (n.repeat step crowded).ready := by
    rw [List.mem_append, Option.mem_toList]
    exact hawake
  obtain ⟨later, -, hle, hturn⟩ := hturns n hlt task hline
  exact ⟨later, hle, hturn⟩

/-- All tasks that let clients in end, the engine ends before the seventh step, and nothing is told
any more. -/
theorem keepsOut_crowded :
    Arises Settings.standard (fun _ _ _ => ⟨[], none⟩) "" crowded ∧ crowded.shutdown = true ∧
      crowded.attempts.map (·.phase.isReading) = [true, false] ∧
      crowded.acceptor.phase = .pausing 10 ∧ crowded.brought = [3] ∧
      (∃ n, ∀ later ≥ n, (Nat.repeat step later crowded).Deserted) ∧
      ((7).repeat step crowded).running = false ∧
      ∀ later, ((7).repeat step crowded).Unfolds later →
        later.jobs = [] ∧ later.records.history = crowded.records.history := by
  obtain ⟨hshut, hstopping, hopenings, hpausing, hbrought, hover⟩ :
      crowded.shutdown = true ∧ crowded.engine.stopping = true ∧
      crowded.attempts.map (·.phase.isReading) = [true, false] ∧
      crowded.acceptor.phase = .pausing 10 ∧ crowded.brought = [3] ∧
      ((7).repeat step crowded).running = false := by
    decide +kernel
  have hunfolds : crowded.Unfolds ((7).repeat step crowded) :=
    chronicle_crowded.unfolds (Nat.zero_le 7)
  obtain ⟨-, -, hends, hclosed, -⟩ := arises_crowded.keepsOut
  obtain ⟨-, -, -, -, hend⟩ := (arises_crowded.unfolds hunfolds).keepsOut
  refine ⟨arises_crowded, hshut, hopenings, hpausing, hbrought,
    hends hshut _ chronicle_crowded rfl, hover, fun later hlater => ?_⟩
  obtain ⟨-, hjobs, htold⟩ := (hend hover).2 later hlater
  exact ⟨hjobs, htold.trans (hclosed hstopping _ hunfolds).history⟩

/-! ## Clients that get in after all -/

/-- The host when its next task has just looked: nobody is to be let in any more, and all sessions
are to end. -/
def surprise (host : Host) : Host := (host.step.step.refuse.request .closeAll).1

/-- A host that somebody has come to. -/
def visited : Host :=
  ((serve Settings.standard (fun _ _ _ => ⟨[], none⟩) "").arrive 200 ⟨.v4 127 0 0 1, 1, 0⟩).1

/-- It is surprised when it is about to accept that client, when it is about to read a request, and
when it is about to read something else. -/
def surprises : List Host :=
  [visited.surprise, (visited.settle.clientWrite 0 sampleOctets).1.surprise,
    (visited.settle.clientWrite 0 [13, 10, 13, 10]).1.surprise]

/-- The stream is still accepted, the client of the second host has its reply and the application is
told of it, and that of the third is counted as refused. -/
theorem letsIn_surprises :
    (∀ host ∈ surprises, Arises Settings.standard (fun _ _ _ => ⟨[], none⟩) "" host) ∧
    surprises.map (·.shutdown) = [true, true, true] ∧
    surprises.map (·.attempts.map (·.transport)) = [[], [0], [0]] ∧
    surprises.map (·.step.attempts.map (·.transport)) = [[0], [0], [0]] ∧
    surprises.map (fun host => ((8).repeat step host).records.history) =
      [[], [(⟨1⟩, .disconnect), (⟨1⟩, .newConnection)], []] ∧
    surprises.map (·.errorCount .handshake) = [0, 0, 0] ∧
    surprises.map (fun host => ((8).repeat step host).errorCount .handshake) = [0, 0, 1] := by
  have hunfolds (host : Host) : host.Unfolds host.surprise :=
    (((Unfolds.of_happens .step).next .step).next .refuse).next (.request .closeAll)
  have hvisited : Arises Settings.standard (fun _ _ _ => ⟨[], none⟩) "" visited :=
    (arises_serve _ _ _).next (.arrive 200 ⟨.v4 127 0 0 1, 1, 0⟩)
  have hwrite (data : Bytes) : Arises Settings.standard (fun _ _ _ => ⟨[], none⟩) ""
      (visited.settle.clientWrite 0 data).1.surprise :=
    ((hvisited.unfolds (unfolds_settle visited)).next (.write 0 data)).unfolds (hunfolds _)
  refine ⟨?_, by decide +kernel⟩
  simp only [surprises, List.forall_mem_cons, List.not_mem_nil, false_imp_iff, implies_true,
    and_true]
  exact ⟨hvisited.unfolds (hunfolds visited), hwrite _, hwrite _⟩

end WebSocket.Host
