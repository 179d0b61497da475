import WebSocket.Proofs.Hosting.Asides
import WebSocket.Proofs.Hosting.Delivery
import WebSocket.Proofs.Hosting.Schedules

/-!
# What may happen to a host

Scenes leave open which task goes on when.  Here a host keeps its tasks in mind: those that can go
on stand in line, and one of them keeps its turn until it waits.  But the line may take any order,
tasks may be let go on for no reason, and anything may come from outside in between
(`Host.Happens`).  So a host may unfold in as many ways as its tasks, its clients and the clock can
be interleaved.  What it does by its own rules is one of them (`unfolds_settle`, `unfolds_advance`,
`unfolds_stop`), also when clients write and read all they can (`unfolds_clientWriteAll`,
`unfolds_clientReadAll`), and its engine is always that of a course (`Arises.follows`).

That no more clients are to be let in may come to pass at any time, also in the middle of a turn of a
task that lets them in.
-/

namespace WebSocket.Host

/-- What may happen next to a host. -/
inductive Happens (host : Host) : Host → Prop
  /-- The task whose turn it is takes part of it, or the next task in line gets its turn. -/
  | step : Happens host host.step
  /-- The line takes another order. -/
  | shuffle {ready : List Task} (pacing : Pacing) :
      (∀ task, task ≠ .clients → (task ∈ ready ↔ task ∈ host.ready)) →
      Happens host { host with ready := ready, pacing := pacing }
  /-- A task goes on for no reason. -/
  | wake (task : Task) : Happens host (host.wake task)
  /-- Time passes. -/
  | pass (now : Nat) : Happens host { host with now := now }
  /-- Time passes, and the tasks go on whose timers are due. -/
  | fire (deadline : Nat) : Happens host (host.fire deadline)
  | report (notice : Notice) : Happens host (host.report notice)
  | request (request : Request) : Happens host (host.request request).1
  /-- A stream is brought in without an opening handshake. -/
  | connect (capacity : Nat) (leftover : Bytes) : Happens host (host.connect capacity leftover).1
  /-- No more clients are to be let in. -/
  | refuse : Happens host host.refuse
  | arrive (capacity : Nat) (peer : SocketAddress) : Happens host (host.arrive capacity peer).1
  | arriveBroken (fault : Fault) : Happens host (host.arriveBroken fault).1
  | write (client : Transport) (data : Bytes) : Happens host (host.clientWrite client data).1
  | read {client : Transport} {most : Option Nat} {host' : Host} {data : Bytes} {ended : Bool} :
      host.clientRead? client most = some (host', data, ended) → Happens host host'
  | shutDown (client : Transport) : Happens host (host.clientShutDown client)
  | hangUp (client : Transport) : Happens host (host.clientHangUp client)

/-- What may come of a host. -/
inductive Unfolds (host : Host) : Host → Prop
  | here : Unfolds host host
  | next {host' host'' : Host} : Unfolds host host' → host'.Happens host'' → Unfolds host host''

/-- A host that has just begun to let clients in. -/
def listening (settings : Settings) (application : Application) (address : String) : Host :=
  let host :=
    { new settings application address with
      acceptor := .new settings.backoff, pacing := .rounds turnsPerRound }
  (host.report (.listening address)).wake .acceptor

/-- The hosts that there are: with an acceptor, or without one. -/
inductive Arises (settings : Settings) (application : Application) (address : String) :
    Host → Prop
  | begin : Arises settings application address (.new settings application address)
  | listen : Arises settings application address (.listening settings application address)
  | next {host host' : Host} : Arises settings application address host → host.Happens host' →
      Arises settings application address host'

/-- A host as it is at one time after another, when every task that can go on gets its turn some
time. -/
structure Chronicle (run : Nat → Host) : Prop where
  happens : ∀ n, (run n).Happens (run (n + 1))
  fair : ∀ n task, (run n).Awake task →
    ∃ later ≥ n, (run later).current = some task ∧ run (later + 1) = (run later).step

variable {settings : Settings} {application : Application} {address : String}
  {host host' host'' : Host}

namespace Unfolds

theorem of_happens (h : host.Happens host') : host.Unfolds host' := .next .here h

theorem trans (h : host.Unfolds host') (h' : host'.Unfolds host'') : host.Unfolds host'' := by
  induction h' with
  | here => exact h
  | next _ hnext ih => exact ih.next hnext

end Unfolds

theorem Arises.unfolds (h : Arises settings application address host) (h' : host.Unfolds host') :
    Arises settings application address host' := by
  induction h' with
  | here => exact h
  | next _ hnext ih => exact ih.next hnext

theorem Chronicle.unfolds {run : Nat → Host} (h : Chronicle run) {n later : Nat} (hle : n ≤ later) :
    (run n).Unfolds (run later) := by
  induction hle with
  | refl => exact .here
  | step _ ih => exact ih.next (h.happens _)

/-! ## What happens to a host is a move -/

theorem Happens.plays (h : host.Happens host') : host.Plays host' := by
  cases h with
  | step => exact host.plays_step
  | shuffle => exact .of_core rfl
  | wake task => exact .of_core (host.core_wake task)
  | pass => exact .of_core rfl
  | fire => exact .of_core (core_wakeAll _ _)
  | report => exact .of_core rfl
  | request request => exact .of_move (.request request) fun σ hσ => hσ ▸ rfl
  | connect capacity leftover => exact .of_move (.connect capacity leftover) fun σ hσ => hσ ▸ rfl
  | refuse => exact .of_move .refuse fun σ hσ => hσ ▸ rfl
  | arrive capacity peer => exact .of_move (.arrive capacity peer) fun σ hσ => hσ ▸ rfl
  | arriveBroken fault => exact .of_move (.arriveBroken fault) fun σ hσ => hσ ▸ rfl
  | write client data => exact .of_move (.write client data) fun σ hσ => hσ ▸ rfl
  | @read client most _ data ended hread =>
    refine .of_move (.read client most) ?_
    rintro σ rfl
    show (σ.clientRead client most).host = host'
    simp only [Scene.clientRead, hread]
  | shutDown client => exact .of_move (.shutDown client) fun σ hσ => hσ ▸ rfl
  | hangUp client => exact .of_move (.hangUp client) fun σ hσ => hσ ▸ rfl

theorem Unfolds.plays (h : host.Unfolds host') : host.Plays host' := by
  induction h with
  | here => exact .refl host
  | next _ hnext ih => exact ih.trans hnext.plays

theorem Arises.plays (h : Arises settings application address host) :
    (new settings application address).Plays host := by
  induction h with
  | begin => exact .refl _
  | listen => exact .of_core (core_wake _ _)
  | next _ hnext ih => exact ih.trans hnext.plays

/-- Whatever happens to a host, its engine is that of a course. -/
theorem Arises.follows (h : Arises settings application address host) :
    ∃ (σ : Scene) (s : Course), σ.host = host ∧ σ.Follows settings.payloadLimit s := by
  obtain ⟨moves, hmoves⟩ := h.plays (.start settings application address) rfl
  obtain ⟨s, hfaithful⟩ := (Scene.faithful_start settings application address).run moves
  exact ⟨_, s, hmoves, hfaithful.follows⟩

/-! ## A host that is left to itself -/

theorem unfolds_settleWithin (host : Host) (n : Nat) : host.Unfolds (host.settleWithin n) := by
  induction n generalizing host with
  | zero => exact .here
  | succ n ih =>
    unfold settleWithin
    split
    · exact .here
    · exact (Unfolds.of_happens .step).trans (ih host.step)

theorem unfolds_afterClients (host : Host) : host.Unfolds host.afterClients := by
  unfold afterClients
  split
  · exact .here
  · refine .of_happens (.shuffle _ fun task hother => ?_)
    simp [hother]

theorem unfolds_settle (host : Host) : host.Unfolds host.settle :=
  host.unfolds_afterClients.trans (unfolds_settleWithin _ _)

theorem unfolds_advanceTo (finish : Nat) (host : Host) (n : Nat) :
    host.Unfolds (advanceTo finish host n) := by
  induction n generalizing host with
  | zero => exact .of_happens (.pass finish)
  | succ n ih =>
    unfold advanceTo
    split
    · exact .of_happens (.pass finish)
    · rename_i deadline _
      split
      · exact .of_happens (.pass finish)
      · exact ((Unfolds.of_happens (.fire deadline)).trans (unfolds_settle _)).trans (ih _)

theorem unfolds_advance (host : Host) (milliseconds : Nat) :
    host.Unfolds (host.advance milliseconds) :=
  unfolds_advanceTo _ host _

theorem arises_serve (settings : Settings) (application : Application) (address : String) :
    Arises settings application address (serve settings application address) :=
  Arises.listen.unfolds (unfolds_settle _)

/-- To stop is one of the things that may happen to a host. -/
theorem unfolds_stop (host : Host) : host.Unfolds host.stop := by
  have hreport : host.Unfolds (host.report (.stopping host.address)) :=
    .of_happens (.report _)
  exact (((hreport.next .refuse).next (.request .closeAll)).trans (unfolds_settle _)).next
    (.report _)

theorem unfolds_clientWriteWithin (host : Host) (client : Transport) (data : Bytes)
    (written n : Nat) : host.Unfolds (host.clientWriteWithin client data written n).1 := by
  induction n generalizing host data written with
  | zero => exact .here
  | succ n ih =>
    unfold clientWriteWithin
    split
    · exact .here
    · have hwrite : host.Unfolds (host.clientWrite client data).1 :=
        .of_happens (.write client data)
      generalize host.clientWrite client data = outcome at hwrite
      obtain ⟨host', result⟩ := outcome
      cases result with
      | accepted count => exact (hwrite.trans (unfolds_settle _)).trans (ih _ _ _)
      | full => exact hwrite
      | broken => exact hwrite

theorem unfolds_clientWriteAll (host : Host) (client : Transport) (data : Bytes) :
    host.Unfolds (host.clientWriteAll client data).1 :=
  host.unfolds_clientWriteWithin client data _ _

theorem unfolds_clientReadWithin (host : Host) (client : Transport) (most : Option Nat) (n : Nat) :
    host.Unfolds (host.clientReadWithin client most n).1 := by
  induction n generalizing host most with
  | zero => exact .here
  | succ n ih =>
    unfold clientReadWithin
    cases hread : host.clientRead? client most with
    | none => exact .here
    | some outcome =>
      obtain ⟨host', data, ended⟩ := outcome
      have hsettle := (Unfolds.of_happens (.read hread)).trans (unfolds_settle host')
      dsimp only
      split
      · exact hsettle
      · exact hsettle.trans (ih _ _)

theorem unfolds_clientReadAll (host : Host) (client : Transport) (most : Option Nat) :
    host.Unfolds (host.clientReadAll client most).1 :=
  host.unfolds_clientReadWithin client most _

/-- A host that comes to rest is fair to its tasks if each that can go on has its turn before. -/
theorem chronicle_of_rest {rest : Nat} (heven : (rest.repeat step host).pacing = .even)
    (hnone : (rest.repeat step host).current = none) (hready : (rest.repeat step host).ready = [])
    (hturns : ∀ n < rest, ∀ task, (n.repeat step host).Awake task →
      ∃ later ≥ n, (later.repeat step host).current = some task) :
    Chronicle fun n => n.repeat step host := by
  have hstays (n : Nat) (hle : rest ≤ n) : n.repeat step host = rest.repeat step host := by
    induction hle with
    | refl => rfl
    | step _ ih =>
      rw [Nat.repeat, ih]
      simp only [step, hnone, giveNext, heven, hready, List.head?_nil]
  refine ⟨fun n => .step, fun n task hawake => ?_⟩
  rcases Nat.lt_or_ge n rest with hlt | hle
  · obtain ⟨later, hlater, hturn⟩ := hturns n hlt task hawake
    exact ⟨later, hlater, hturn, rfl⟩
  · rw [hstays n hle, Awake, hnone, hready] at hawake
    exact absurd hawake (by simp)

end WebSocket.Host
