import WebSocket.Hosting.Turn

/-!
# Turns of the tasks that let clients in

An attempt, or the acceptor, takes its turn part by part.  Each part looks whether clients may be let
in, or does something that this allows; here all that a part may come to is listed, once for the
attempts (`Host.OpeningPart`) and once for the acceptor (`Host.AcceptorPart`).
-/

namespace WebSocket.Host

inductive OpeningPart (host : Host) (transport : Transport) : Host × TurnEnd → Prop
  /-- There is no such attempt. -/
  | rests : (∀ attempt ∈ host.attempts, attempt.transport = transport →
      host.links.length ≤ transport) → OpeningPart host transport (host, .waiting)
  /-- It finds that it may go on. -/
  | looks : host.cleared = false → host.shutdown = false →
      OpeningPart host transport ({ host with cleared := true }, .continued)
  /-- It finds that it may not. -/
  | abandons : host.cleared = false → host.shutdown = true →
      OpeningPart host transport (host.abandon transport, .waiting)
  | moves {attempt : Attempt} {link link' : Link} {phase : Opening.Phase} : host.cleared = true →
      host.attempts.find? (·.transport = transport) = some attempt →
      attempt.phase.step Link.medium host.settings.requestLimit link = (link', .moved phase) →
      OpeningPart host transport
        ((host.changeLink transport fun _ => link').putAttempt { attempt with phase := phase },
          .continued)
  | waits {attempt : Attempt} {link : Link} : host.cleared = true → attempt ∈ host.attempts →
      attempt.transport = transport →
      OpeningPart host transport (host.changeLink transport fun _ => link, host.pause)
  /-- It waits for the first time. -/
  | setsClock {attempt : Attempt} {link : Link} {deadline : Nat} : host.cleared = true →
      attempt ∈ host.attempts → attempt.transport = transport →
      OpeningPart host transport
        (((host.changeLink transport fun _ => link).setTimer ⟨deadline, .opening transport⟩).putAttempt
          { attempt with deadline := some deadline }, host.pause)
  | ends {attempt : Attempt} {link : Link} (outcome : Except OpeningError ReceiveBuffer) :
      host.cleared = true → attempt ∈ host.attempts → attempt.transport = transport →
      OpeningPart host transport
        ((host.changeLink transport fun _ => link).finishAttempt attempt outcome, .waiting)

theorem openingPart (host : Host) (transport : Transport) :
    host.OpeningPart transport (host.openingTurn transport) := by
  unfold openingTurn
  split
  · rename_i attempt link hattempt _
    have hmem := List.mem_of_find?_eq_some hattempt
    obtain rfl : attempt.transport = transport := by simpa using List.find?_some hattempt
    split
    · rename_i hcleared
      cases hstep : attempt.phase.step Link.medium host.settings.requestLimit link with
      | mk link' progress =>
        cases progress with
        | moved phase => exact .moves hcleared hattempt hstep
        | ended outcome => exact .ends outcome hcleared hmem rfl
        | waiting =>
          show host.OpeningPart attempt.transport (awaitAttempt _ attempt)
          unfold awaitAttempt
          split
          · exact .waits hcleared hmem rfl
          · dsimp only
            split
            · exact .ends _ hcleared hmem rfl
            · exact .setsClock hcleared hmem rfl
          · split
            · exact .ends _ hcleared hmem rfl
            · exact .waits hcleared hmem rfl
    · rename_i hcleared
      rw [Bool.not_eq_true] at hcleared
      split
      · exact .abandons hcleared ‹_›
      · exact .looks hcleared (Bool.not_eq_true _ ▸ ‹_›)
  · rename_i hnone
    refine .rests fun attempt hmem hstream => ?_
    cases hattempt : host.attempts.find? (·.transport = transport) with
    | none => exact absurd (decide_eq_true hstream) (List.find?_eq_none.mp hattempt attempt hmem)
    | some found =>
      cases hlink : host.links[transport]? with
      | none => exact List.getElem?_eq_none_iff.mp hlink
      | some link => exact absurd hlink (hnone found link hattempt)

inductive AcceptorPart (host : Host) : Host × TurnEnd → Prop
  /-- It finds that it may go on. -/
  | looks : host.cleared = false → host.shutdown = false →
      AcceptorPart host ({ host with cleared := true }, .continued)
  /-- It finds that it may not, or the pause after the next failure is out of range. -/
  | ends : (host.cleared = false → host.shutdown = true) →
      (host.cleared = true → ∃ deadline, host.acceptor.phase = .pausing deadline ∧
        deadline ≤ host.now ∧ host.acceptor.backoff.next? host.acceptor.delay = none) →
      AcceptorPart host (host.endAccepting, .waiting)
  | asks : host.cleared = true → host.acceptor.phase = .asking →
      AcceptorPart host ({ host with
        acceptor := { host.acceptor with phase := .waiting }
        records := { host.records with asked := host.now :: host.records.asked } }, .continued)
  | accepts {transport : Transport} {peer : SocketAddress} : host.cleared = true →
      host.acceptor.phase = .waiting → host.arrivals.head? = some (.stream transport peer) →
      AcceptorPart host (beginAttempt { host with
        acceptor := { host.acceptor with delay := host.acceptor.backoff.initial, phase := .asking }
        arrivals := host.arrivals.tail
        cleared := false } transport peer, .continued)
  | fails {fault : Fault} {deadline : Nat} : host.cleared = true →
      host.acceptor.phase = .waiting → host.arrivals.head? = some (.failure fault) →
      deadline = host.now + host.acceptor.delay.millisUp →
      AcceptorPart host ({ host with
        acceptor := { host.acceptor with phase := .pausing deadline }
        arrivals := host.arrivals.tail
        cleared := false
        records := (host.records.count (.error .accept)).report (.acceptFailed fault host.address)
        timers := host.timers ++ [⟨deadline, .acceptor⟩] }, .continued)
  | resumes {deadline : Nat} {delay : Duration} : host.cleared = true →
      host.acceptor.phase = .pausing deadline → deadline ≤ host.now →
      host.acceptor.backoff.next? host.acceptor.delay = some delay →
      AcceptorPart host ({ host with
        acceptor := { host.acceptor with delay := delay, phase := .asking }
        cleared := false }, .continued)
  /-- It can do nothing at present. -/
  | idles : host.cleared = true → host.acceptor.phase ≠ .asking →
      (host.acceptor.phase = .waiting → host.arrivals.head? = none) →
      (∀ deadline, host.acceptor.phase = .pausing deadline → host.now < deadline) →
      AcceptorPart host (host, host.pause)

theorem acceptorPart (host : Host) : host.AcceptorPart host.acceptorTurn := by
  unfold acceptorTurn
  split
  · rename_i hcleared
    cases hphase : host.acceptor.phase with
    | asking =>
      simp only [Acceptor.step, hphase]
      exact .asks hcleared hphase
    | waiting =>
      cases hfirst : host.arrivals.head? with
      | none =>
        simp only [Acceptor.step, hphase]
        exact .idles hcleared (hphase ▸ nofun) (fun _ => hfirst) (hphase ▸ nofun)
      | some arrival =>
        cases arrival with
        | stream transport peer =>
          simp only [Acceptor.step, hphase]
          exact .accepts hcleared hphase hfirst
        | failure fault =>
          simp only [Acceptor.step, hphase]
          exact .fails hcleared hphase hfirst rfl
    | pausing deadline =>
      by_cases hearly : host.now < deadline
      · simp only [Acceptor.step, hphase, if_pos hearly]
        refine .idles hcleared (hphase ▸ nofun) (hphase ▸ nofun) fun other heq => ?_
        rw [hphase] at heq
        exact AcceptorPhase.pausing.inj heq ▸ hearly
      · have hdue := Nat.not_lt.mp hearly
        cases hnext : host.acceptor.backoff.next? host.acceptor.delay with
        | none =>
          simp only [Acceptor.step, hphase, if_neg hearly, hnext]
          exact .ends (fun hlooks => absurd (hcleared.symm.trans hlooks) nofun)
            fun _ => ⟨deadline, hphase, hdue, hnext⟩
        | some delay =>
          simp only [Acceptor.step, hphase, if_neg hearly, hnext]
          exact .resumes hcleared hphase hdue hnext
    | ended =>
      simp only [Acceptor.step, hphase]
      exact .idles hcleared (hphase ▸ nofun) (hphase ▸ nofun) (hphase ▸ nofun)
  · rename_i hcleared
    rw [Bool.not_eq_true] at hcleared
    split
    · exact .ends (fun _ => ‹_›) fun hlooked => absurd (hcleared.symm.trans hlooked) nofun
    · exact .looks hcleared (Bool.not_eq_true _ ▸ ‹_›)

/-! ## Turns of a host that is to let nobody in -/

variable {host : Host}

theorem acceptorTurn_of_shutdown (hshut : host.shutdown = true) (hcleared : host.cleared = false) :
    host.acceptorTurn = (host.endAccepting, .waiting) := by
  unfold acceptorTurn
  rw [hcleared, hshut]
  rfl

/-- An attempt ends with its turn; if there is none on the stream, nothing happens. -/
theorem openingTurn_of_shutdown (hshut : host.shutdown = true) (hcleared : host.cleared = false)
    (hlinks : ∀ attempt ∈ host.attempts, attempt.transport < host.links.length)
    (transport : Transport) :
    host.openingTurn transport = (host.abandon transport, .waiting) ∨
      host.openingTurn transport = (host, .waiting) ∧
        ∀ attempt ∈ host.attempts, attempt.transport ≠ transport := by
  have hpart := host.openingPart transport
  generalize host.openingTurn transport = outcome at hpart
  cases hpart with
  | rests hnone =>
    refine .inr ⟨rfl, fun attempt hmem hstream => ?_⟩
    have hlt := hlinks attempt hmem
    have hle := hnone attempt hmem hstream
    rw [hstream] at hlt
    exact absurd hle (Nat.not_le_of_lt hlt)
  | looks _ hopen => exact absurd (hopen.symm.trans hshut) nofun
  | abandons => exact .inl rfl
  | moves hlooked | waits hlooked | setsClock hlooked | ends _ hlooked =>
    exact absurd (hcleared.symm.trans hlooked) nofun

theorem not_mem_abandon (host : Host) (transport : Transport) :
    ∀ attempt ∈ (host.abandon transport).attempts, attempt.transport ≠ transport := by
  intro attempt hmem
  simpa using (List.mem_filter.mp hmem).2

theorem openingTurn_of_mem (hshut : host.shutdown = true) (hcleared : host.cleared = false)
    (hlinks : ∀ attempt ∈ host.attempts, attempt.transport < host.links.length)
    {attempt : Attempt} (hmem : attempt ∈ host.attempts) :
    host.openingTurn attempt.transport = (host.abandon attempt.transport, .waiting) := by
  rcases openingTurn_of_shutdown hshut hcleared hlinks attempt.transport with hends | ⟨-, hnone⟩
  · exact hends
  · exact absurd rfl (hnone attempt hmem)

end WebSocket.Host
