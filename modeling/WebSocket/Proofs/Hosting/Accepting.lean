import WebSocket.Proofs.Hosting.Poise
import WebSocket.Proofs.Hosting.Waits

/-!
# The results of an acceptor

A host takes one result of its acceptor after another, in steps of its own (`Host.taking`); whatever
else happens counts none and begins no attempt to let a client in (`Happens.passes`).  With each host
that lets clients in go the results so far (`Host.Accepts`).  They settle how long the acceptor waits
after a failure, and as long as clients are let in no result ends it (`Host.backs_off`).
-/

namespace WebSocket.Host

/-- The result that the acceptor takes with the next step: it has looked, and has asked for one. -/
def taking (host : Host) : Option Arrival :=
  if host.current = some .acceptor ∧ host.cleared = true ∧ host.acceptor.phase = .waiting then
    host.arrivals.head?
  else none

/-- The hosts that let clients in, with the results of their acceptors so far. -/
inductive Accepts (settings : Settings) (application : Application) (address : String) :
    List Arrival → Host → Prop
  | listen : Accepts settings application address [] (.listening settings application address)
  /-- The acceptor takes a result. -/
  | take {results : List Arrival} {host : Host} {arrival : Arrival} :
      Accepts settings application address results host → host.taking = some arrival →
      Accepts settings application address (results ++ [arrival]) host.step
  /-- Anything else happens. -/
  | other {results : List Arrival} {host host' : Host} :
      Accepts settings application address results host → host.Happens host' →
      (host' = host.step → host.taking = none) →
      Accepts settings application address results host'

/-- What comes of the results of an acceptor, at a host that has taken some of them. -/
structure BacksOff (host : Host) (backoff : Backoff) (results : List Arrival) : Prop where
  /-- No result has ended the acceptor. -/
  goesOn : host.acceptor.phase ≠ .ended
  counted : host.errorCount .accept = (results.countP (·.isFailure) : Nat)
  /-- A stream begins one attempt to let its client in, and the acceptor asks for the next one. -/
  stream : ∀ transport peer, host.taking = some (.stream transport peer) →
    host.step.attempts = host.attempts ++ [⟨transport, some peer, none, .start⟩] ∧
      host.step.Awake (.opening transport) ∧ host.step.errorCount .accept = host.errorCount .accept ∧
      host.step.acceptor.phase = .asking ∧ host.step.current = some .acceptor
  /-- A failure is counted, and the acceptor waits. -/
  failure : ∀ fault, host.taking = some (.failure fault) →
    ∃ pause : Duration, pause.nanos = backoff.wait (streak (results ++ [.failure fault])) ∧
      backoff.least ≤ pause.nanos ∧ pause.nanos ≤ backoff.most ∧
      Backoff.floor.nanos ≤ pause.nanos ∧
      host.step.acceptor.phase = .pausing (host.now + pause.millisUp) ∧
      ⟨host.now + pause.millisUp, .acceptor⟩ ∈ host.step.timers ∧
      host.step.errorCount .accept = host.errorCount .accept + 1 ∧
      host.step.attempts = host.attempts
  /-- Nothing cuts the wait short. -/
  pauses : ∀ deadline host', host.acceptor.phase = .pausing deadline → host.now < deadline →
    host.Happens host' → host'.acceptor = host.acceptor
  /-- In its turn the acceptor looks whether clients are let in, and finds that they are. -/
  looks : host.current = some .acceptor → host.cleared = false →
    host.step = { host with cleared := true }
  /-- After the wait it asks for the next stream. -/
  resumes : ∀ deadline, host.acceptor.phase = .pausing deadline → deadline ≤ host.now →
    host.current = some .acceptor → host.cleared = true →
      host.step.acceptor.phase = .asking ∧ host.step.current = some .acceptor
  asks : host.acceptor.phase = .asking → host.current = some .acceptor → host.cleared = true →
    host.step.acceptor.phase = .waiting ∧ host.step.current = some .acceptor
  /-- No attempt begins and no failure is counted without a result. -/
  others : ∀ host', host.Happens host' → (host' = host.step → host.taking = none) →
    (host'.attempts.map (·.transport)).Sublist (host.attempts.map (·.transport)) ∧
      host'.errorCount .accept = host.errorCount .accept

variable {settings : Settings} {application : Application} {address : String}
  {host host' host'' : Host} {results : List Arrival}

/-! ## Whatever takes no result -/

/-- From one state of a host to another without a result. -/
structure Passes (host host' : Host) : Prop where
  shutdown : host.shutdown = true → host'.shutdown = true
  accepts : host'.errorCount .accept = host.errorCount .accept
  /-- No attempt to let a client in begins. -/
  attempts : (host'.attempts.map (·.transport)).Sublist (host.attempts.map (·.transport))

theorem Passes.trans (h : host.Passes host') (h' : host'.Passes host'') : host.Passes host'' where
  shutdown := h'.shutdown ∘ h.shutdown
  accepts := h'.accepts.trans h.accepts
  attempts := h'.attempts.trans h.attempts

/-- From one state of a host to another without the acceptor. -/
structure Bystands (host host' : Host) : Prop extends host.Passes host' where
  acceptor : host'.acceptor = host.acceptor

namespace Bystands

theorem refl (host : Host) : host.Bystands host := ⟨⟨id, rfl, .refl _⟩, rfl⟩

theorem trans (h : host.Bystands host') (h' : host'.Bystands host'') : host.Bystands host'' where
  toPasses := h.toPasses.trans h'.toPasses
  acceptor := h'.acceptor.trans h.acceptor

end Bystands

theorem Welcomes.bystands {mails : List Mail} (h : host.Welcomes mails host') :
    host.Bystands host' where
  shutdown hshut := h.shutdown.trans hshut
  accepts := h.errors .accept rfl
  attempts := h.attempts ▸ .refl _
  acceptor := h.acceptor

theorem Tries.bystands (h : host.Tries host') : host.Bystands host' where
  shutdown hshut := h.shutdown.trans hshut
  accepts := h.accepts
  attempts := h.attempts
  acceptor := h.acceptor

theorem bystands_refuse (host : Host) : host.Bystands host.refuse := by
  unfold refuse
  split
  · exact .refl host
  · have hshut : host.Bystands { host with shutdown := true } := ⟨⟨fun _ => rfl, rfl, .refl _⟩, rfl⟩
    exact hshut.trans (serves_wakeAll _ _).toWelcomes.bystands

theorem bystands_engineTurn (host : Host) (allowance : Nat) :
    host.Bystands (host.engineTurn allowance).1 := by
  obtain ⟨mails, host', hserves, hsame | hends⟩ := host.engineTurn_cases allowance
  · rw [hsame]
    exact hserves.toWelcomes.bystands
  · obtain ⟨host₁, hretired, hretire⟩ := host'.retire_eq
    have hclosed : host'.Bystands host'.closed := ⟨⟨id, rfl, .refl _⟩, rfl⟩
    rw [hends, hretire]
    exact (hserves.toWelcomes.bystands.trans hclosed).trans
      (hretired.toWelcomes.bystands.trans (bystands_refuse host₁))

/-! ## Steps -/

theorem bystands_turn (host : Host) {task : Task} (hother : task ≠ .acceptor) :
    host.Bystands (host.turn task).1 := by
  cases task with
  | engine => exact host.bystands_engineTurn mailPerTurn
  | clients => exact .refl host
  | acceptor => exact absurd rfl hother
  | reader id => exact (host.serves_jobTurn (.reader id)).toWelcomes.bystands
  | writer id => exact (host.serves_jobTurn (.writer id)).toWelcomes.bystands
  | opening transport => exact (host.tries_openingTurn transport).bystands

/-- The end of a turn has no part in what comes of it. -/
theorem bystands_of_turn {task : Task} (hcurrent : host.current = some task) :
    (host.turn task).1.Bystands host.step := by
  have hpart := host.stepPart
  generalize host.step = next at hpart
  cases hpart with
  | gives _ _ _ hnone => exact absurd (hnone.symm.trans hcurrent) nofun
  | continues hturn =>
    obtain rfl := Option.some.inj (hturn.symm.trans hcurrent)
    exact .refl _
  | ends more hturn =>
    obtain rfl := Option.some.inj (hturn.symm.trans hcurrent)
    exact ⟨⟨id, rfl, .refl _⟩, rfl⟩

theorem bystands_step (hother : host.current ≠ some .acceptor) : host.Bystands host.step := by
  cases hcurrent : host.current with
  | none =>
    have hpart := host.stepPart
    generalize host.step = next at hpart
    cases hpart with
    | gives => exact ⟨⟨id, rfl, .refl _⟩, rfl⟩
    | continues hturn | ends _ hturn => exact absurd (hcurrent.symm.trans hturn) nofun
  | some task =>
    have hturn := host.bystands_turn fun heq => hother (hcurrent.trans (congrArg some heq))
    exact hturn.trans (bystands_of_turn hcurrent)

/-- Apart from the turns of the acceptor, whatever happens leaves it alone. -/
theorem Happens.bystands (h : host.Happens host') :
    host.Bystands host' ∨ host.current = some .acceptor ∧ host' = host.step := by
  rcases h.kinds with rfl | rfl | hserves | ⟨-, hwelcomes⟩
  · by_cases hcurrent : host.current = some .acceptor
    · exact .inr ⟨hcurrent, rfl⟩
    · exact .inl (bystands_step hcurrent)
  · exact .inl host.bystands_refuse
  · exact .inl hserves.toWelcomes.bystands
  · exact .inl hwelcomes.bystands

/-! ## Steps of the acceptor -/

theorem taking_eq_some {arrival : Arrival} (h : host.taking = some arrival) :
    host.current = some .acceptor ∧ host.cleared = true ∧ host.acceptor.phase = .waiting ∧
      host.arrivals.head? = some arrival := by
  unfold taking at h
  split at h
  · rename_i hwaits
    exact ⟨hwaits.1, hwaits.2.1, hwaits.2.2, h⟩
  · cases h

/-- An acceptor that takes no result does not accept a stream, and counts no failure. -/
theorem passes_acceptorTurn (hcurrent : host.current = some .acceptor) (h : host.taking = none) :
    host.Passes host.acceptorTurn.1 := by
  have hpart := host.acceptorPart
  generalize host.acceptorTurn = outcome at hpart
  have hnone (hcleared : host.cleared = true) (hphase : host.acceptor.phase = .waiting) :
      host.arrivals.head? = none := by
    rwa [taking, if_pos ⟨hcurrent, hcleared, hphase⟩] at h
  cases hpart with
  | ends =>
    have hends := host.endAccepting_eq.toWelcomes.bystands.toPasses
    exact ⟨hends.shutdown, hends.accepts, hends.attempts⟩
  | looks | asks | resumes | idles => exact ⟨id, rfl, .refl _⟩
  | accepts hcleared hphase hfirst | fails hcleared hphase hfirst =>
    exact absurd (hfirst.symm.trans (hnone hcleared hphase)) nofun

/-- A turn in which the acceptor takes no result keeps its delay, or settles the next one. -/
theorem keeps_acceptorTurn (hopen : host.shutdown = false) (hcurrent : host.current = some .acceptor)
    (hnone : host.taking = none) {backoff : Backoff} (h : host.acceptor.Keeps backoff results) :
    host.acceptorTurn.1.acceptor.Keeps backoff results ∨
      host.acceptorTurn.1.acceptor.GivenUp backoff results := by
  have hpart := host.acceptorPart
  generalize host.acceptorTurn = outcome at hpart
  cases hpart with
  | looks | idles => exact .inl h
  | asks _ hphase => exact .inl (h.ask hphase)
  | resumes _ hphase _ hnext => exact .inl (h.resume hphase hnext).2
  | ends hnot hover =>
    cases hcleared : host.cleared with
    | false => exact absurd (hopen.symm.trans (hnot hcleared)) nofun
    | true =>
      obtain ⟨deadline, hphase, -, hnext⟩ := hover hcleared
      rw [host.endAccepting_eq.acceptor]
      exact .inr (h.stuck hphase hnext)
  | accepts hcleared hphase hfirst | fails hcleared hphase hfirst =>
    rw [taking, if_pos ⟨hcurrent, hcleared, hphase⟩, hfirst] at hnone
    cases hnone

/-- An acceptor that has ended does not begin again. -/
theorem ended_acceptorTurn (hended : host.acceptor.phase = .ended) :
    host.acceptorTurn.1.acceptor.phase = .ended := by
  have hpart := host.acceptorPart
  generalize host.acceptorTurn = outcome at hpart
  cases hpart with
  | looks | idles => exact hended
  | ends => exact host.ended_endAccepting
  | asks _ hphase | resumes _ hphase | accepts _ hphase | fails _ hphase =>
    exact absurd (hphase.symm.trans hended) nofun

section Turns

variable (hcurrent : host.current = some .acceptor)

include hcurrent

theorem step_of_looking (hcleared : host.cleared = false) (hopen : host.shutdown = false) :
    host.step = { host with cleared := true } := by
  simp only [step, hcurrent, turn, acceptorTurn, hcleared, hopen, Bool.false_eq_true, if_false]

theorem step_of_asking (hcleared : host.cleared = true) (hphase : host.acceptor.phase = .asking) :
    host.step = { host with
      acceptor := { host.acceptor with phase := .waiting },
      records := { host.records with asked := host.now :: host.records.asked } } := by
  simp only [step, hcurrent, turn, acceptorTurn, hcleared, if_true, Acceptor.step, hphase]

theorem step_of_due (hcleared : host.cleared = true) {deadline : Nat}
    (hphase : host.acceptor.phase = .pausing deadline) (hdue : deadline ≤ host.now)
    {later : Duration} (hnext : host.acceptor.backoff.next? host.acceptor.delay = some later) :
    host.step = { host with
      acceptor := { host.acceptor with delay := later, phase := .asking }, cleared := false } := by
  simp only [step, hcurrent, turn, acceptorTurn, hcleared, if_true, Acceptor.step, hphase,
    if_neg (Nat.not_lt.mpr hdue), hnext]

end Turns

theorem step_of_stream {transport : Transport} {peer : SocketAddress}
    (h : host.taking = some (.stream transport peer)) :
    host.step = beginAttempt { host with
      acceptor := { host.acceptor with delay := host.acceptor.backoff.initial, phase := .asking },
      arrivals := host.arrivals.tail, cleared := false } transport peer := by
  obtain ⟨hcurrent, hcleared, hphase, hfirst⟩ := taking_eq_some h
  simp only [step, hcurrent, turn, acceptorTurn, hcleared, if_true, Acceptor.step, hphase, hfirst]

theorem step_of_failure {fault : Fault} (h : host.taking = some (.failure fault)) :
    let deadline := host.now + host.acceptor.delay.millisUp
    host.step = { host with
      acceptor := { host.acceptor with phase := .pausing deadline },
      arrivals := host.arrivals.tail, cleared := false,
      records := (host.records.count (.error .accept)).report (.acceptFailed fault host.address),
      timers := host.timers ++ [⟨deadline, .acceptor⟩] } := by
  obtain ⟨hcurrent, hcleared, hphase, hfirst⟩ := taking_eq_some h
  simp only [step, hcurrent, turn, acceptorTurn, hcleared, if_true, Acceptor.step, hphase, hfirst]
  rfl

/-! ## Runs -/

theorem Happens.passes (h : host.Happens host') (hnone : host' = host.step → host.taking = none) :
    host.Passes host' := by
  rcases h.bystands with hbystands | ⟨hcurrent, rfl⟩
  · exact hbystands.toPasses
  · exact (passes_acceptorTurn hcurrent (hnone rfl)).trans (bystands_of_turn hcurrent).toPasses

/-- Whatever becomes of a host that has begun to let clients in, it has taken some results. -/
theorem Unfolds.accepts (h : (listening settings application address).Unfolds host) :
    ∃ results, Accepts settings application address results host := by
  induction h with
  | here => exact ⟨[], .listen⟩
  | @next host host' _ hnext ih =>
    obtain ⟨results, haccepts⟩ := ih
    by_cases hother : host' = host.step → host.taking = none
    · exact ⟨results, haccepts.other hnext hother⟩
    · obtain ⟨rfl, htaking⟩ := Classical.not_imp.mp hother
      obtain ⟨arrival, harrival⟩ := Option.ne_none_iff_exists'.mp htaking
      exact ⟨results ++ [arrival], haccepts.take harrival⟩

namespace Accepts

theorem counted (h : Accepts settings application address results host) :
    host.errorCount .accept = (results.countP (·.isFailure) : Nat) := by
  induction h with
  | listen => exact (aside_wake _ .acceptor).errors .accept rfl
  | other _ hnext hnone ih => exact (hnext.passes hnone).accepts.trans ih
  | @take results host arrival _ htaking ih =>
    rw [List.countP_append, Int.natCast_add, ← ih]
    cases arrival with
    | stream transport peer =>
      rw [step_of_stream htaking]
      exact ((aside_wake _ _).errors .accept rfl).trans (Int.add_zero _).symm
    | failure fault =>
      rw [step_of_failure htaking]
      exact host.errorCount_count .accept .accept

/-- As long as clients are let in, the acceptor goes on or has given up. -/
theorem keeps_or_givenUp (h : Accepts settings application address results host)
    (hopen : host.shutdown = false) :
    host.acceptor.Keeps settings.backoff results ∨
      host.acceptor.GivenUp settings.backoff results := by
  induction h with
  | listen =>
    have hnew : (listening settings application address).acceptor = .new settings.backoff :=
      (aside_wake _ .acceptor).acceptor
    rw [hnew]
    exact .inl (Acceptor.keeps_new settings.backoff)
  | @take results host arrival _ htaking ih =>
    obtain ⟨-, -, hphase, -⟩ := taking_eq_some htaking
    have hkeeps (hbefore : host.shutdown = false) : host.acceptor.Keeps settings.backoff results :=
      (ih hbefore).resolve_right fun hgiven => absurd (hphase.symm.trans hgiven.ended) nofun
    cases arrival with
    | stream transport peer =>
      rw [step_of_stream htaking] at hopen ⊢
      have hwake (next : Host) := next.aside_wake (.opening transport)
      rw [beginAttempt, (hwake _).shutdown] at hopen
      rw [beginAttempt, (hwake _).acceptor]
      exact .inl ((hkeeps hopen).take_stream transport peer)
    | failure fault =>
      rw [step_of_failure htaking] at hopen ⊢
      exact .inl ((hkeeps hopen).take_failure hphase fault _).1
  | @other results host host' _ hnext hnone ih =>
    have hbefore : host.shutdown = false := by
      by_contra hshut
      have hshut' := (hnext.passes hnone).shutdown (eq_true_of_ne_false hshut)
      exact absurd (hopen.symm.trans hshut') nofun
    rcases hnext.bystands with hbystands | ⟨hcurrent, rfl⟩
    · rw [hbystands.acceptor]
      exact ih hbefore
    · have hturn := (bystands_of_turn hcurrent).acceptor
      rw [hturn]
      rcases ih hbefore with hkeeps | hgiven
      · exact keeps_acceptorTurn hbefore hcurrent (hnone rfl) hkeeps
      · exact .inr { hgiven with ended := ended_acceptorTurn hgiven.ended }

/-- With delays that can be doubled the acceptor goes on. -/
theorem keeps (hdoubles : settings.backoff.Doubles)
    (h : Accepts settings application address results host) (hopen : host.shutdown = false) :
    host.acceptor.Keeps settings.backoff results := by
  rcases h.keeps_or_givenUp hopen with hkeeps | hgiven
  · exact hkeeps
  · exact absurd hgiven.overflow (Nat.not_lt.mpr (hdoubles.wait_le _))

theorem backsOff (hdoubles : settings.backoff.Doubles)
    (h : Accepts settings application address results host) (hopen : host.shutdown = false) :
    host.BacksOff settings.backoff results where
  goesOn := (h.keeps hdoubles hopen).goesOn
  counted := h.counted
  stream transport peer htaking := by
    obtain ⟨hcurrent, -, -, -⟩ := taking_eq_some htaking
    rw [step_of_stream htaking]
    exact ⟨(serves_wake _ _).attempts, awake_wake _ _, (aside_wake _ _).errors .accept rfl,
      congrArg Acceptor.phase (aside_wake _ _).acceptor, (aside_wake _ _).current.trans hcurrent⟩
  failure fault htaking := by
    obtain ⟨-, -, hphase, -⟩ := taking_eq_some htaking
    have hwait := ((h.keeps hdoubles hopen).take_failure hphase fault 0).2
    have hlong := settings.backoff.least_le_wait (streak (results ++ [.failure fault]))
    have hfloor := settings.backoff.floor_le_least
    refine ⟨host.acceptor.delay, hwait, by omega, ?_, by omega, ?_⟩
    · rw [hwait]
      exact settings.backoff.wait_le_most _
    · rw [step_of_failure htaking]
      exact ⟨rfl, List.mem_append_right _ List.mem_cons_self,
        host.errorCount_count .accept .accept, rfl⟩
  pauses deadline host' hphase hearly hnext := by
    rcases hnext.bystands with hbystands | ⟨hcurrent, rfl⟩
    · exact hbystands.acceptor
    · refine (bystands_of_turn hcurrent).acceptor.trans ?_
      have hpart := host.acceptorPart
      show host.acceptorTurn.1.acceptor = host.acceptor
      generalize host.acceptorTurn = outcome at hpart
      cases hpart with
      | looks | idles => rfl
      | ends hnot hover =>
        cases hcleared : host.cleared with
        | false => exact absurd (hopen.symm.trans (hnot hcleared)) nofun
        | true =>
          obtain ⟨other, hother, hdue, -⟩ := hover hcleared
          obtain rfl := AcceptorPhase.pausing.inj (hphase.symm.trans hother)
          exact absurd hdue (Nat.not_le_of_lt hearly)
      | asks _ hother | accepts _ hother | fails _ hother =>
        exact absurd (hphase.symm.trans hother) nofun
      | resumes _ hother hdue =>
        obtain rfl := AcceptorPhase.pausing.inj (hphase.symm.trans hother)
        exact absurd hdue (Nat.not_le_of_lt hearly)
  looks hcurrent hcleared := step_of_looking hcurrent hcleared hopen
  resumes deadline hphase hdue hcurrent hcleared := by
    have hrange := hdoubles.wait_le (streak results)
    cases hnext : host.acceptor.backoff.next? host.acceptor.delay with
    | none =>
      have hover := ((h.keeps hdoubles hopen).next?_eq_none_iff hphase).mp hnext
      omega
    | some later =>
      rw [step_of_due hcurrent hcleared hphase hdue hnext]
      exact ⟨rfl, hcurrent⟩
  asks hphase hcurrent hcleared := by
    rw [step_of_asking hcurrent hcleared hphase]
    exact ⟨rfl, hcurrent⟩
  others host' hnext hnone := by
    have hpasses := hnext.passes hnone
    exact ⟨hpasses.attempts, hpasses.accepts⟩

/-- Some steps, in which the acceptor takes what there is to take. -/
theorem steps (h : Accepts settings application address results host) (n : Nat)
    {taken : List Arrival}
    (htaken : ((List.range n).filterMap fun k => (k.repeat step host).taking) = taken) :
    Accepts settings application address (results ++ taken) (n.repeat step host) := by
  induction n generalizing taken with
  | zero =>
    rw [← htaken, List.range_zero, List.filterMap_nil, List.append_nil]
    exact h
  | succ n ih =>
    rw [← htaken, List.range_succ, List.filterMap_append, ← List.append_assoc]
    cases htaking : (n.repeat step host).taking with
    | none =>
      simp only [List.filterMap_cons, htaking, List.filterMap_nil, List.append_nil]
      exact (ih rfl).other .step fun _ => htaking
    | some arrival =>
      simp only [List.filterMap_cons, htaking, List.filterMap_nil]
      exact (ih rfl).take htaking

end Accepts

/-- For every two delays that can be doubled and every order of streams and failures: the wait after
the last one of so many failures in a row is `Backoff.wait`, one error is counted for each failure,
one attempt to let a client in begins for each stream, and the acceptor goes on after each. -/
theorem backs_off (settings : Settings) (application : Application) (address : String)
    (hdoubles : settings.backoff.Doubles) :
    (∀ host, (listening settings application address).Unfolds host →
      ∃ results, Accepts settings application address results host) ∧
    ∀ results host, Accepts settings application address results host → host.shutdown = false →
      host.BacksOff settings.backoff results :=
  ⟨fun _ hunfolds => hunfolds.accepts, fun _ _ haccepts hopen => haccepts.backsOff hdoubles hopen⟩

/-- Delays of three milliseconds and of none, in this order: a failure, a stream, and three failures
in a row.  The third wait in a row would be four milliseconds long, but none is longer than three. -/
theorem backs_off_thrice :
    let settings := { Settings.standard with backoff := ⟨.ofMillis 3, .ofMillis 0⟩ }
    let failure : Arrival := .failure .aborted
    let peer : SocketAddress := ⟨.v4 127 0 0 1, 1, 0⟩
    settings.backoff.Doubles ∧ ∃ host,
      Accepts settings (Rule.application Rule.echo) "" [failure, .stream 0 peer, failure, failure]
        host ∧ host.shutdown = false ∧ host.now = 4 ∧ host.taking = some failure ∧
      host.step.acceptor.phase = .pausing 7 ∧ host.step.errorCount .accept = 4 := by
  intro settings failure peer
  have hdoubles : settings.backoff.Doubles := by decide +kernel
  obtain ⟨-, hbacks⟩ := backs_off settings (Rule.application Rule.echo) "" hdoubles
  let came : Host :=
    let host := ((listening settings (Rule.application Rule.echo) "").arriveBroken .aborted).1
    let host := (host.arrive 8 peer).1
    let host := ((host.arriveBroken .aborted).1.arriveBroken .aborted).1
    (host.arriveBroken .aborted).1
  have hcame : Accepts settings (Rule.application Rule.echo) "" [] came := by
    refine Accepts.other ?_ (.arriveBroken .aborted) (fun _ => by decide +kernel)
    refine Accepts.other ?_ (.arriveBroken .aborted) (fun _ => by decide +kernel)
    refine Accepts.other ?_ (.arriveBroken .aborted) (fun _ => by decide +kernel)
    refine Accepts.other ?_ (.arrive 8 peer) (fun _ => by decide +kernel)
    exact Accepts.listen.other (.arriveBroken .aborted) (fun _ => by decide +kernel)
  let first := (Nat.repeat step 6 came).fire 1
  have hfirst : Accepts settings (Rule.application Rule.echo) "" [failure] first :=
    (hcame.steps 6 (by decide +kernel)).other (.fire 1) (fun _ => by decide +kernel)
  let second := (Nat.repeat step 14 first).fire 2
  have hsecond : Accepts settings (Rule.application Rule.echo) ""
      [failure, .stream 0 peer, failure] second :=
    (hfirst.steps 14 (by decide +kernel)).other (.fire 2) (fun _ => by decide +kernel)
  let third := (Nat.repeat step 8 second).fire 4
  have hthird : Accepts settings (Rule.application Rule.echo) ""
      [failure, .stream 0 peer, failure, failure] third :=
    (hsecond.steps 8 (by decide +kernel)).other (.fire 4) (fun _ => by decide +kernel)
  have hlast : Accepts settings (Rule.application Rule.echo) ""
      [failure, .stream 0 peer, failure, failure] (Nat.repeat step 5 third) :=
    hthird.steps 5 (by decide +kernel)
  have htaking : (Nat.repeat step 5 third).taking = some failure := by decide +kernel
  have hopen : (Nat.repeat step 5 third).shutdown = false := by decide +kernel
  have hnow : (Nat.repeat step 5 third).now = 4 := by decide +kernel
  have hoff := hbacks _ _ hlast hopen
  obtain ⟨pause, hpause, -, -, -, hphase, -, hcount, -⟩ := hoff.failure .aborted htaking
  have hlength : pause.nanos = 3000000 := hpause.trans (by decide +kernel)
  refine ⟨hdoubles, _, hlast, hopen, hnow, htaking, ?_, ?_⟩
  · rw [hphase, hnow, Duration.millisUp, hlength]
    rfl
  · rw [hcount, hoff.counted]
    rfl

end WebSocket.Host
