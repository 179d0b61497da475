import WebSocket.Proofs.Hosting.Accepting

/-!
# When an acceptor gives up

After a wait the acceptor doubles its delay, and only then cuts it down to the larger one of its
back-off.  So it comes to an end, although no result ended it, when the delay cannot be doubled; the
host goes on without it and lets nobody in (`Host.Retries`).  Any number of failures can come in a
row (`Stands.exists_failures`), and they make the delay as long as the larger one.  Hence there is a
host whose acceptor gives up just where the larger delay cannot be doubled (`gives_up_iff`):

    ∃ n, wait (n + 1) = most                                                  (exists_wait_eq_most)
    (∃ n, n failures in a row end the acceptor) ↔ maxNanos < 2 * most
-/

namespace WebSocket

namespace Backoff

variable {b : Backoff}

theorem least_pos (b : Backoff) : 0 < b.least :=
  Nat.lt_of_lt_of_le (by decide : 0 < floor.nanos) b.floor_le_least

/-- Failures enough make the wait as long as the larger delay. -/
theorem exists_wait_eq_most (b : Backoff) : ∃ n, b.wait (n + 1) = b.most := by
  refine ⟨b.most, Nat.min_eq_right ?_⟩
  calc b.most
      ≤ 2 ^ b.most := Nat.le_of_lt Nat.lt_two_pow_self
    _ ≤ b.least * 2 ^ b.most := Nat.le_mul_of_pos_left _ b.least_pos

/-- Failures come to a first wait that cannot be doubled, if the larger delay cannot. -/
theorem exists_overflow (h : maxNanos < 2 * b.most) :
    ∃ n, maxNanos < 2 * b.wait (n + 1) ∧ ∀ m < n, 2 * b.wait (m + 1) ≤ maxNanos := by
  have hex : ∃ n, maxNanos < 2 * b.wait (n + 1) := by
    obtain ⟨n, hn⟩ := b.exists_wait_eq_most
    exact ⟨n, by omega⟩
  classical
  exact ⟨Nat.find hex, Nat.find_spec hex, fun m hm => Nat.not_lt.mp (Nat.find_min hex hm)⟩

end Backoff

theorem streak_replicate (n : Nat) (fault : Fault) :
    streak (List.replicate n (.failure fault)) = n := by
  induction n with
  | zero => rfl
  | succ n ih => rw [List.replicate_succ', streak_append_failure, ih]

namespace Host

/-- What comes of an acceptor's waits, at a host that lets clients in and has taken some results. -/
structure Retries (host : Host) (backoff : Backoff) (results : List Arrival) : Prop where
  /-- Only a wait that cannot be doubled ends the acceptor. -/
  ended : host.acceptor.phase = .ended →
    0 < streak results ∧ maxNanos < 2 * backoff.wait (streak results)
  /-- After a wait that can be doubled the next one is settled, and the acceptor asks again. -/
  resumes : ∀ deadline, host.acceptor.phase = .pausing deadline → deadline ≤ host.now →
    host.current = some .acceptor → host.cleared = true →
    2 * backoff.wait (streak results) ≤ maxNanos →
      host.step.acceptor.phase = .asking ∧ host.step.current = some .acceptor ∧
        host.step.acceptor.delay.nanos = backoff.wait (streak results + 1)
  /-- After one that cannot, the acceptor ends, and what waits to be accepted is let go.  Nothing is
  counted or reported, and the host goes on. -/
  givesUp : ∀ deadline, host.acceptor.phase = .pausing deadline → deadline ≤ host.now →
    host.current = some .acceptor → host.cleared = true →
    maxNanos < 2 * backoff.wait (streak results) →
      host.step = host.endAccepting.endTurn ∧ host.step.acceptor.phase = .ended ∧
        host.step.records = host.records ∧ host.step.shutdown = host.shutdown
  /-- Whatever happens afterwards, no result is taken, no attempt to let a client in begins, and
  nobody waits to be accepted. -/
  lost : host.acceptor.phase = .ended → ∀ host', host.Unfolds host' →
    host'.acceptor.phase = .ended ∧ host'.taking = none ∧ host'.arrivals = [] ∧
      (host'.attempts.map (·.transport)).Sublist (host.attempts.map (·.transport))

variable {settings : Settings} {application : Application} {address : String}
  {host host' : Host} {results : List Arrival}

/-! ## An acceptor that has ended -/

theorem taking_of_phase_ne (h : host.acceptor.phase ≠ .waiting) : host.taking = none :=
  if_neg fun hwaits => h hwaits.2.2

theorem taking_of_pausing {deadline : Nat} (h : host.acceptor.phase = .pausing deadline) :
    host.taking = none :=
  taking_of_phase_ne (h ▸ nofun)

theorem step_of_overflow (hcurrent : host.current = some .acceptor) (hcleared : host.cleared = true)
    {deadline : Nat} (hphase : host.acceptor.phase = .pausing deadline) (hdue : deadline ≤ host.now)
    (hnext : host.acceptor.backoff.next? host.acceptor.delay = none) :
    host.step = host.endAccepting.endTurn := by
  simp only [step, hcurrent, turn, acceptorTurn, hcleared, if_true, Acceptor.step, hphase,
    if_neg (Nat.not_lt.mpr hdue), hnext]

theorem arriveBroken_of_turn (hcurrent : host.current = some .acceptor)
    (hphase : host.acceptor.phase = .waiting) (hnothing : host.arrivals = []) (fault : Fault) :
    (host.arriveBroken fault).1 = { host with arrivals := [.failure fault] } := by
  simp [arriveBroken, hphase, hnothing, wake, hcurrent]

/-- Whatever happens, an acceptor that has ended does not begin again. -/
theorem Happens.ended (h : host.Happens host') (hended : host.acceptor.phase = .ended) :
    host'.acceptor.phase = .ended := by
  rcases h.bystands with hbystands | ⟨hcurrent, rfl⟩
  · rw [hbystands.acceptor, hended]
  · rw [(bystands_of_turn hcurrent).acceptor]
    exact ended_acceptorTurn hended

theorem Unfolds.ended (h : host.Unfolds host') (hended : host.acceptor.phase = .ended) :
    host'.acceptor.phase = .ended ∧ host.Passes host' := by
  induction h with
  | here => exact ⟨hended, ⟨id, rfl, .refl _⟩⟩
  | next _ hnext ih =>
    obtain ⟨hended', hpasses⟩ := ih
    refine ⟨hnext.ended hended', hpasses.trans (hnext.passes fun _ => ?_)⟩
    exact taking_of_phase_ne (hended' ▸ nofun)

namespace Accepts

theorem arises (h : Accepts settings application address results host) :
    Arises settings application address host := by
  induction h with
  | listen => exact .listen
  | take _ _ ih => exact ih.next .step
  | other _ hnext _ ih => exact ih.next hnext

/-- An acceptor that pauses has not given up. -/
theorem keeps_of_pausing (h : Accepts settings application address results host)
    (hopen : host.shutdown = false) {deadline : Nat}
    (hphase : host.acceptor.phase = .pausing deadline) :
    host.acceptor.Keeps settings.backoff results :=
  (h.keeps_or_givenUp hopen).resolve_right fun hgiven =>
    absurd (hphase.symm.trans hgiven.ended) nofun

theorem retries (h : Accepts settings application address results host)
    (hopen : host.shutdown = false) : host.Retries settings.backoff results where
  ended hended := by
    rcases h.keeps_or_givenUp hopen with hkeeps | hgiven
    · exact absurd hended hkeeps.goesOn
    · exact ⟨hgiven.failed, hgiven.overflow⟩
  resumes deadline hphase hdue hcurrent hcleared hrange := by
    have hkeeps := h.keeps_of_pausing hopen hphase
    cases hnext : host.acceptor.backoff.next? host.acceptor.delay with
    | none => exact absurd ((hkeeps.next?_eq_none_iff hphase).mp hnext) (Nat.not_lt.mpr hrange)
    | some later =>
      rw [step_of_due hcurrent hcleared hphase hdue hnext]
      exact ⟨rfl, hcurrent, (hkeeps.resume hphase hnext).1⟩
  givesUp deadline hphase hdue hcurrent hcleared hover := by
    have hnext := ((h.keeps_of_pausing hopen hphase).next?_eq_none_iff hphase).mpr hover
    have hstep := step_of_overflow hcurrent hcleared hphase hdue hnext
    obtain ⟨links, -, hends⟩ := host.exists_endAccepting
    refine ⟨hstep, ?_⟩
    rw [hstep, hends]
    exact ⟨rfl, rfl, rfl⟩
  lost hended host' hunfolds := by
    obtain ⟨hended', hpasses⟩ := hunfolds.ended hended
    exact ⟨hended', taking_of_phase_ne (hended' ▸ nofun),
      (h.arises.unfolds hunfolds).poised.ended hended', hpasses.attempts⟩

end Accepts

/-! ## Failures in a row -/

/-- It is the turn of the acceptor, which has looked and stands at some point, and nothing has come
that it could take. -/
structure Stands (settings : Settings) (application : Application) (address : String)
    (results : List Arrival) (phase : AcceptorPhase) (host : Host) : Prop where
  accepts : Accepts settings application address results host
  letsIn : host.shutdown = false
  turn : host.current = some .acceptor
  looked : host.cleared = true
  phase : host.acceptor.phase = phase
  nothing : host.arrivals = []

namespace Stands

/-- The acceptor looks, if it stands there otherwise. -/
theorem look (haccepts : Accepts settings application address results host)
    (hopen : host.shutdown = false) (hturn : host.current = some .acceptor)
    (hcleared : host.cleared = false) (hnothing : host.arrivals = []) :
    Stands settings application address results host.acceptor.phase host.step := by
  have hnone : host.taking = none := if_neg fun hwaits =>
    absurd (hwaits.2.1.symm.trans hcleared) nofun
  have hlooked := haccepts.other .step fun _ => hnone
  rw [step_of_looking hturn hcleared hopen] at hlooked ⊢
  exact ⟨hlooked, hopen, hturn, rfl, rfl, hnothing⟩

theorem listen (settings : Settings) (application : Application) (address : String) :
    Stands settings application address [] .asking
      (listening settings application address).step.step :=
  look (Accepts.listen.other .step fun _ => rfl) rfl rfl rfl rfl

theorem ask (h : Stands settings application address results .asking host) :
    Stands settings application address results .waiting host.step := by
  have hnone : host.taking = none := taking_of_phase_ne (h.phase ▸ nofun)
  have hasked := h.accepts.other .step fun _ => hnone
  rw [step_of_asking h.turn h.looked h.phase] at hasked ⊢
  exact ⟨hasked, h.letsIn, h.turn, h.looked, rfl, h.nothing⟩

/-- A failure comes, and the acceptor waits until its wait is over. -/
theorem fail (h : Stands settings application address results .waiting host) (fault : Fault) :
    ∃ deadline host', Stands settings application address (results ++ [.failure fault])
      (.pausing deadline) host' ∧ deadline ≤ host'.now := by
  have hnone : host.taking = none := by
    rw [taking, if_pos ⟨h.turn, h.looked, h.phase⟩, h.nothing]
    rfl
  have hcomes := h.accepts.other (.arriveBroken fault) fun _ => hnone
  rw [arriveBroken_of_turn h.turn h.phase h.nothing] at hcomes
  have htaking : { host with arrivals := [.failure fault] }.taking = some (.failure fault) :=
    if_pos ⟨h.turn, h.looked, h.phase⟩
  have htaken := hcomes.take htaking
  rw [step_of_failure htaking] at htaken
  have hlooked := look htaken h.letsIn h.turn rfl rfl
  let deadline := host.now + host.acceptor.delay.millisUp
  have hpassed := hlooked.accepts.other (.pass deadline) fun _ => taking_of_pausing hlooked.phase
  exact ⟨_, _, { hlooked with accepts := hpassed }, Nat.le_refl _⟩

theorem resume {deadline : Nat}
    (h : Stands settings application address results (.pausing deadline) host)
    (hdue : deadline ≤ host.now)
    (hrange : 2 * settings.backoff.wait (streak results) ≤ maxNanos) :
    Stands settings application address results .asking host.step.step := by
  have hresumed := h.accepts.other .step fun _ => taking_of_pausing h.phase
  have hkeeps := h.accepts.keeps_of_pausing h.letsIn h.phase
  cases hnext : host.acceptor.backoff.next? host.acceptor.delay with
  | none => exact absurd ((hkeeps.next?_eq_none_iff h.phase).mp hnext) (Nat.not_lt.mpr hrange)
  | some later =>
    rw [step_of_due h.turn h.looked h.phase hdue hnext] at hresumed ⊢
    exact look hresumed h.letsIn h.turn rfl h.nothing

/-- As long as all waits can be doubled, any number of failures can come in a row. -/
theorem exists_failures (settings : Settings) (application : Application) (address : String)
    (fault : Fault) (n : Nat) (hrange : ∀ m < n, 2 * settings.backoff.wait (m + 1) ≤ maxNanos) :
    ∃ host,
      Stands settings application address (List.replicate n (.failure fault)) .asking host := by
  induction n with
  | zero => exact ⟨_, .listen settings application address⟩
  | succ n ih =>
    obtain ⟨host, hstands⟩ := ih fun m hm => hrange m (Nat.lt_succ_of_lt hm)
    obtain ⟨deadline, host', hpauses, hdue⟩ := hstands.ask.fail fault
    have hwait := hrange n (Nat.lt_succ_self n)
    rw [← List.replicate_succ'] at hpauses
    exact ⟨host'.step.step, hpauses.resume hdue (by rwa [streak_replicate])⟩

/-- If the larger delay cannot be doubled, failures in a row end an acceptor. -/
theorem exists_ended (settings : Settings) (application : Application) (address : String)
    (fault : Fault) (hover : maxNanos < 2 * settings.backoff.most) :
    ∃ n host, Accepts settings application address (List.replicate n (.failure fault)) host ∧
      host.shutdown = false ∧ host.acceptor.phase = .ended := by
  obtain ⟨n, hstuck, hrange⟩ := Backoff.exists_overflow hover
  obtain ⟨host, hstands⟩ := exists_failures settings application address fault n hrange
  obtain ⟨deadline, host', hpauses, hdue⟩ := hstands.ask.fail fault
  rw [← List.replicate_succ'] at hpauses
  obtain ⟨-, hended, -, hshutdown⟩ := (hpauses.accepts.retries hpauses.letsIn).givesUp deadline
    hpauses.phase hdue hpauses.turn hpauses.looked (by rwa [streak_replicate])
  have hends := hpauses.accepts.other .step fun _ => taking_of_pausing hpauses.phase
  exact ⟨n + 1, host'.step, hends, hshutdown.trans hpauses.letsIn, hended⟩

end Stands

/-- For every two delays and every order of streams and failures: the acceptor goes on after each
wait that can be doubled, and ends for good after one that cannot.  Failures in a row come to such a
wait just if the larger delay cannot be doubled. -/
theorem gives_up_iff (settings : Settings) (application : Application) (address : String) :
    (∀ host, (listening settings application address).Unfolds host →
      ∃ results, Accepts settings application address results host) ∧
    (∀ results host, Accepts settings application address results host → host.shutdown = false →
      host.Retries settings.backoff results) ∧
    ((∃ results host, Accepts settings application address results host ∧ host.shutdown = false ∧
      host.acceptor.phase = .ended) ↔ maxNanos < 2 * settings.backoff.most) := by
  refine ⟨fun _ hunfolds => hunfolds.accepts, fun _ _ haccepts hopen => haccepts.retries hopen,
    ?_, fun hover => ?_⟩
  · rintro ⟨results, host, haccepts, hopen, hended⟩
    obtain ⟨-, hover⟩ := (haccepts.retries hopen).ended hended
    have hle := settings.backoff.wait_le_most (streak results)
    omega
  · obtain ⟨n, host, haccepts, hopen, hended⟩ :=
      Stands.exists_ended settings application address .aborted hover
    exact ⟨_, host, haccepts, hopen, hended⟩

/-- The longest delay there is cannot be doubled, and with it a single failure ends the acceptor. -/
theorem ended_of_longest :
    let longest : Duration := ⟨maxNanos, Nat.le_refl _⟩
    let settings := Settings.standard.withBackoff ⟨longest, longest⟩
    settings.backoff.next? longest = none ∧
      ¬ ∀ results host,
        Accepts settings (Rule.application Rule.echo) "" results host → host.shutdown = false →
          host.acceptor.phase ≠ .ended := by
  intro longest settings
  refine ⟨by decide +kernel, fun hgoesOn => ?_⟩
  let came := ((listening settings (Rule.application Rule.echo) "").arriveBroken .aborted).1
  have hcame : Accepts settings (Rule.application Rule.echo) "" [] came :=
    Accepts.listen.other (.arriveBroken .aborted) fun _ => by decide +kernel
  let waited := (Nat.repeat step 6 came).fire longest.millisUp
  have hwaited : Accepts settings (Rule.application Rule.echo) "" [.failure .aborted] waited :=
    (hcame.steps 6 (by decide +kernel)).other (.fire _) fun _ => by decide +kernel
  have hlast : Accepts settings (Rule.application Rule.echo) "" [.failure .aborted]
      (Nat.repeat step 4 waited) :=
    hwaited.steps 4 (by decide +kernel)
  exact hgoesOn _ _ hlast (by decide +kernel) (by decide +kernel)

end Host

end WebSocket
