import WebSocket.Proofs.Hosting.Entrance
import WebSocket.Proofs.Hosting.Performance
import WebSocket.Proofs.Hosting.Scenes

/-!
# Moves that leave the sessions alone

Clients come in stages: a stream waits to be accepted, then its client is being let in, and then the
engine is told of it.  The streams of such clients are the comers of a host (`Host.comers`); a
stream is at one stage at a time, and a new one has a number of its own.  Apart from the engine,
from reads and writes, and from clients that read, everything that happens to a host touches the
comers at most (`Host.Quiet`).  If it is not that something is asked of the engine or that a client
writes, it is felt by nobody else either: the application is told nothing, and the other streams hold
what they held (`Host.Unfelt`).
-/

namespace WebSocket

def Arrival.stream? : Arrival → Option Transport
  | stream transport _ => some transport
  | failure _ => none

namespace Host

def comers (host : Host) : List Transport :=
  host.arrivals.filterMap (·.stream?) ++
    (host.attempts.map (·.transport) ++ host.completions.filterMap broughtStream)

/-- One if a stream was added between two numbers of streams. -/
def fresh (first next transport : Nat) : Nat := if first ≤ transport ∧ transport < next then 1 else 0

theorem fresh_add {first middle next : Nat} (h : first ≤ middle) (h' : middle ≤ next)
    (transport : Nat) :
    fresh first middle transport + fresh middle next transport = fresh first next transport := by
  unfold fresh
  split <;> split <;> split <;> omega

/-- From one state of a host to another that differ in the clients that come at most, and in new
requests. -/
structure Quiet (host host' : Host) : Prop where
  engine : host'.engine = host.engine
  running : host'.running = host.running
  requests : ∃ posted, host'.requests.toList = host.requests.toList ++ posted
  completions : ∃ added, host'.completions = host.completions ++ added ∧
    added.filterMap (·.ticket?) = []
  tickets : host'.jobs.map Job.ticket = host.jobs.map Job.ticket
  writings : host'.jobs.filterMap Job.writing? = host.jobs.filterMap Job.writing?
  readings : host'.jobs.filterMap Job.reading? = host.jobs.filterMap Job.reading?
  links : host.links.length ≤ host'.links.length
  comers : ∀ transport : Nat, host'.comers.count transport ≤
    host.comers.count transport + fresh host.links.length host'.links.length transport
  outbound : ∀ transport : Nat, transport < host.links.length → transport ∉ host.comers →
    host'.outbound transport = host.outbound transport

namespace Quiet

variable {host host' host'' : Host}

theorem trans (h : host.Quiet host') (h' : host'.Quiet host'') : host.Quiet host'' where
  engine := h'.engine.trans h.engine
  running := h'.running.trans h.running
  requests := by
    obtain ⟨posted, hposted⟩ := h.requests
    obtain ⟨later, hlater⟩ := h'.requests
    exact ⟨posted ++ later, by rw [hlater, hposted, List.append_assoc]⟩
  completions := by
    obtain ⟨added, hadded, hnone⟩ := h.completions
    obtain ⟨later, hlater, hnone'⟩ := h'.completions
    exact ⟨added ++ later, by rw [hlater, hadded, List.append_assoc],
      by rw [List.filterMap_append, hnone, hnone', List.append_nil]⟩
  tickets := h'.tickets.trans h.tickets
  writings := h'.writings.trans h.writings
  readings := h'.readings.trans h.readings
  links := Nat.le_trans h.links h'.links
  comers transport := by
    have hfresh := fresh_add h.links h'.links transport
    have := h.comers transport
    have := h'.comers transport
    omega
  outbound transport hlt hnot := by
    have hnot' : transport ∉ host'.comers := by
      have hcount := h.comers transport
      rw [List.count_eq_zero_of_not_mem hnot, fresh, if_neg (by omega)] at hcount
      exact List.count_eq_zero.mp (by omega)
    exact (h'.outbound transport (Nat.lt_of_lt_of_le hlt h.links) hnot').trans
      (h.outbound transport hlt hnot)

/-- What leaves the core as it is is quiet. -/
theorem of_core (h : host'.core = host.core) : host.Quiet host' := by
  simp only [core, Core.mk.injEq] at h
  obtain ⟨hengine, hrunning, hcompletions, hrequests, hlinks, hjobs, hattempts, harrivals⟩ := h
  have hcomers : host'.comers = host.comers := by
    rw [Host.comers, Host.comers, hcompletions, hattempts, harrivals]
  exact {
    engine := hengine
    running := hrunning
    requests := ⟨[], by rw [hrequests, List.append_nil]⟩
    completions := ⟨[], by rw [hcompletions, List.append_nil], rfl⟩
    tickets := by rw [hjobs]
    writings := by rw [hjobs]
    readings := by rw [hjobs]
    links := Nat.le_of_eq (by rw [hlinks])
    comers := by
      intro transport
      rw [hcomers]
      exact Nat.le_add_right ..
    outbound := by
      intro transport _ _
      rw [Host.outbound, Host.outbound, hlinks] }

theorem refl (host : Host) : host.Quiet host := of_core rfl

end Quiet

/-- Carrying out effects adds new streams only. -/
theorem Performs.comers {host host' : Host} {effects : List Effect}
    {frames : ConnectionId → List ServerFrame} (h : host.Performs host' effects frames)
    (transport : Nat) :
    host'.comers.count transport ≤
      host.comers.count transport + fresh host.links.length host'.links.length transport := by
  obtain ⟨added, hadded, hbrings⟩ := h.completions
  have hmore : (added.filterMap broughtStream).count transport ≤
      fresh host.links.length host'.links.length transport := by
    unfold fresh
    split
    · exact List.nodup_iff_count.mp hbrings.nodup transport
    · rename_i hold
      have hnot : transport ∉ added.filterMap broughtStream := by
        intro hmem
        exact hold (hbrings.new transport hmem)
      exact Nat.le_of_eq (List.count_eq_zero_of_not_mem hnot)
  rw [Host.comers, Host.comers, h.arrivals, h.attempts, hadded, List.filterMap_append]
  simp only [List.count_append]
  omega

theorem Performs.quiet {host host' : Host} {frames : ConnectionId → List ServerFrame}
    (h : host.Performs host' [] frames) : host.Quiet host' where
  engine := h.engine
  running := h.running
  requests := by
    obtain ⟨posted, hposted, -⟩ := h.requests
    exact ⟨posted, hposted⟩
  completions := by
    obtain ⟨added, hadded, hbrings⟩ := h.completions
    exact ⟨added, hadded, hbrings.tickets⟩
  tickets := h.tickets.trans (List.append_nil _)
  writings := h.writings.trans (List.append_nil _)
  readings := h.readings.trans (List.append_nil _)
  links := h.links
  comers := h.comers
  outbound transport _ _ := h.outbound transport

/-- From one state of a host to another that differ for the clients that come at most. -/
structure Unfelt (host host' : Host) : Prop extends host.Quiet host' where
  application : host'.application = host.application
  history : host'.records.history = host.records.history
  asks : host'.requests = host.requests
  inbound : ∀ transport : Nat, transport < host.links.length → transport ∉ host.comers →
    host'.inbound transport = host.inbound transport

namespace Unfelt

variable {host host' host'' : Host}

theorem trans (h : host.Unfelt host') (h' : host'.Unfelt host'') : host.Unfelt host'' where
  toQuiet := h.toQuiet.trans h'.toQuiet
  application := h'.application.trans h.application
  history := h'.history.trans h.history
  asks := h'.asks.trans h.asks
  inbound transport hlt hnot := by
    have hnot' : transport ∉ host'.comers := by
      have hcount := h.comers transport
      rw [List.count_eq_zero_of_not_mem hnot, fresh, if_neg (by omega)] at hcount
      exact List.count_eq_zero.mp (by omega)
    exact (h'.inbound transport (Nat.lt_of_lt_of_le hlt h.links) hnot').trans
      (h.inbound transport hlt hnot)

/-- What changes nothing of the core, and tells the application nothing, is felt by nobody. -/
theorem of_core (hcore : host'.core = host.core) (happlication : host'.application = host.application)
    (hhistory : host'.records.history = host.records.history) : host.Unfelt host' where
  toQuiet := .of_core hcore
  application := happlication
  history := hhistory
  asks := congrArg Core.requests hcore
  inbound transport _ _ := by
    have hlinks : host'.links = host.links := congrArg Core.links hcore
    rw [Host.inbound, Host.inbound, hlinks]

theorem refl (host : Host) : host.Unfelt host := of_core rfl rfl rfl

end Unfelt

/-! ## Links -/

variable (host : Host)

theorem unfelt_wakeAll (tasks : List Task) : host.Unfelt (host.wakeAll tasks) := by
  obtain ⟨more, hmore⟩ := host.exists_wakeAll tasks
  rw [hmore host rfl rfl]
  exact .of_core rfl rfl rfl

theorem unfelt_wake (task : Task) : host.Unfelt (host.wake task) := host.unfelt_wakeAll [task]

theorem unfelt_changeLink {f : Link → Link}
    (hinbound : ∀ link, (f link).inbound.content = link.inbound.content)
    (houtbound : ∀ link, (f link).outbound.content = link.outbound.content)
    (transport : Transport) : host.Unfelt (host.changeLink transport f) where
  toQuiet := (host.performs_changeLink hinbound houtbound transport).quiet
  application := rfl
  history := rfl
  asks := rfl
  inbound other _ _ := host.inbound_changeLink hinbound transport other

theorem unfelt_release (transport : Transport) : host.Unfelt (host.release transport) :=
  host.unfelt_changeLink (f := Link.release) (fun _ => rfl) (fun _ => rfl) transport

/-- The stream of a client that comes may be read from and written to. -/
theorem unfelt_changeComer {transport : Transport} (h : transport ∈ host.comers)
    (f : Link → Link) : host.Unfelt (host.changeLink transport f) := by
  have hne {other : Transport} (hnot : other ∉ host.comers) : transport ≠ other := by
    rintro rfl
    exact hnot h
  exact { Unfelt.refl host with
    links := Nat.le_of_eq (host.length_changeLink transport f).symm
    comers := fun _ => Nat.le_add_right ..
    outbound := fun _ _ hnot => host.outbound_changeLink_of_ne f (hne hnot)
    inbound := fun _ _ hnot => host.inbound_changeLink_of_ne f (hne hnot) }

/-- How often a stream is among those at one of the stages. -/
theorem count_comers (transport : Nat) :
    host.comers.count transport = (host.arrivals.filterMap (·.stream?)).count transport +
      ((host.attempts.map (·.transport)).count transport +
        (host.completions.filterMap broughtStream).count transport) := by
  simp only [comers, List.count_append]

/-- When clients go, or go from one stage to the next, there is no new stream. -/
theorem unfelt_of_stages {host' : Host}
    (hcore : host'.core = { host.core with
      completions := host'.completions, attempts := host'.attempts, arrivals := host'.arrivals })
    (happlication : host'.application = host.application)
    (hhistory : host'.records.history = host.records.history)
    (hcompletions : ∃ added, host'.completions = host.completions ++ added ∧
      added.filterMap (·.ticket?) = [])
    (hstages : ∀ transport : Nat, (host'.arrivals.filterMap (·.stream?)).count transport +
      ((host'.attempts.map (·.transport)).count transport +
        (host'.completions.filterMap broughtStream).count transport) ≤
      (host.arrivals.filterMap (·.stream?)).count transport +
        ((host.attempts.map (·.transport)).count transport +
          (host.completions.filterMap broughtStream).count transport)) :
    host.Unfelt host' := by
  simp only [core, Core.mk.injEq] at hcore
  obtain ⟨hengine, hrunning, -, hrequests, hlinks, hjobs, -, -⟩ := hcore
  exact {
    engine := hengine
    running := hrunning
    requests := ⟨[], by rw [hrequests, List.append_nil]⟩
    completions := hcompletions
    tickets := by rw [hjobs]
    writings := by rw [hjobs]
    readings := by rw [hjobs]
    links := Nat.le_of_eq (by rw [hlinks])
    comers := by
      intro transport
      rw [count_comers, count_comers]
      exact Nat.le_trans (hstages transport) (Nat.le_add_right ..)
    outbound := fun transport _ _ => by rw [Host.outbound, Host.outbound, hlinks]
    application := happlication
    history := hhistory
    asks := hrequests
    inbound := fun transport _ _ => by rw [Host.inbound, Host.inbound, hlinks] }

/-! ## Clients that are being let in -/

theorem transports_putAttempt (attempt : Attempt) :
    (host.putAttempt attempt).attempts.map (·.transport) = host.attempts.map (·.transport) := by
  simp only [putAttempt, List.map_map]
  congr 1
  funext a
  show (if a.transport = attempt.transport then attempt else a).transport = a.transport
  split
  · rename_i heq
    exact heq.symm
  · rfl

theorem unfelt_putAttempt (attempt : Attempt) : host.Unfelt (host.putAttempt attempt) := by
  refine host.unfelt_of_stages rfl rfl rfl ⟨[], (List.append_nil _).symm, rfl⟩ ?_
  intro transport
  rw [transports_putAttempt]
  exact Nat.le_refl _

theorem count_removeAttempt (removed : Transport) (transport : Nat) :
    ((host.removeAttempt removed).attempts.map (·.transport)).count transport ≤
      (host.attempts.map (·.transport)).count transport :=
  (List.filter_sublist.map _).count_le transport

theorem unfelt_removeAttempt (removed : Transport) : host.Unfelt (host.removeAttempt removed) := by
  refine host.unfelt_of_stages rfl rfl rfl ⟨[], (List.append_nil _).symm, rfl⟩ ?_
  intro transport
  exact Nat.add_le_add_left (Nat.add_le_add_right (host.count_removeAttempt removed transport) _) _

/-- An attempt that is taken out leaves room for its stream at another stage. -/
theorem count_moved {moved : Transport} (h : moved ∈ host.attempts.map (·.transport))
    (transport : Nat) :
    ((host.removeAttempt moved).attempts.map (·.transport)).count transport +
      [moved].count transport ≤ (host.attempts.map (·.transport)).count transport := by
  by_cases heq : moved = transport
  · subst heq
    have hgone : moved ∉ (host.removeAttempt moved).attempts.map (·.transport) := by
      intro hmem
      obtain ⟨attempt, hattempt, htransport⟩ := List.mem_map.mp hmem
      have hne := (List.mem_filter.mp hattempt).2
      rw [htransport] at hne
      simp at hne
    have hpos := List.count_pos_iff.mpr h
    rw [List.count_eq_zero_of_not_mem hgone, List.count_singleton_self]
    omega
  · -- Nothing else has its stream, so nothing else is counted less.
    have hnone : [moved].count transport = 0 := by
      apply List.count_eq_zero_of_not_mem
      simpa using fun h => heq h.symm
    rw [hnone]
    exact host.count_removeAttempt moved transport

/-- The engine is told of a client that has been let in. -/
theorem unfelt_admit {attempt : Attempt}
    (h : attempt.transport ∈ host.attempts.map (·.transport)) (leftover : ReceiveBuffer) :
    host.Unfelt ((host.removeAttempt attempt.transport).complete
      (.registered attempt.transport attempt.peer leftover)) := by
  let completion : Completion := .registered attempt.transport attempt.peer leftover
  by_cases hrunning : host.running = true
  · obtain ⟨more, hmore⟩ :=
      (host.removeAttempt attempt.transport).exists_complete hrunning completion
    rw [hmore]
    refine host.unfelt_of_stages rfl rfl rfl ⟨[completion], rfl, rfl⟩ ?_
    intro transport
    have hmoved := host.count_moved h transport
    have hmore : ((host.completions ++ [completion]).filterMap broughtStream).count transport =
          (host.completions.filterMap broughtStream).count transport +
            [attempt.transport].count transport := by
      rw [List.filterMap_append, List.count_append]
      rfl
    show _ + (((host.removeAttempt attempt.transport).attempts.map (·.transport)).count transport +
      ((host.completions ++ [completion]).filterMap broughtStream).count transport) ≤ _
    refine Nat.add_le_add_left ?_ _
    rw [hmore]
    omega
  · have hgone := complete_of_not_running (host.removeAttempt attempt.transport) hrunning completion
    rw [hgone]
    exact (host.unfelt_removeAttempt attempt.transport).trans (unfelt_release _ _)

theorem unfelt_finishAttempt {attempt : Attempt}
    (h : attempt.transport ∈ host.attempts.map (·.transport))
    (outcome : Except OpeningError ReceiveBuffer) :
    host.Unfelt (host.finishAttempt attempt outcome) := by
  cases outcome with
  | ok leftover => exact host.unfelt_admit h leftover
  | error error =>
    have hreport : (host.removeAttempt attempt.transport).Unfelt
        (((host.removeAttempt attempt.transport).count (.error .handshake)).report
          (.openingFailed error attempt.peer)) := .of_core rfl rfl rfl
    exact (host.unfelt_removeAttempt attempt.transport).trans
      (hreport.trans (unfelt_release _ attempt.transport))

theorem mem_comers_of_attempt {attempt : Attempt} (h : attempt ∈ host.attempts) :
    attempt.transport ∈ host.comers :=
  List.mem_append_right _ (List.mem_append_left _ (List.mem_map_of_mem h))

theorem unfelt_openingTurn (transport : Transport) :
    host.Unfelt (host.openingTurn transport).1 := by
  have hpart := host.openingPart transport
  generalize host.openingTurn transport = outcome at hpart
  cases hpart with
  | rests => exact .refl host
  | looks => exact .of_core rfl rfl rfl
  | abandons => exact (host.unfelt_removeAttempt transport).trans (unfelt_release _ transport)
  | moves _ hattempt =>
    obtain rfl : _ = transport := by simpa using List.find?_some hattempt
    have hcomes := host.mem_comers_of_attempt (List.mem_of_find?_eq_some hattempt)
    exact (host.unfelt_changeComer hcomes _).trans (unfelt_putAttempt _ _)
  | waits _ hmem hstream =>
    obtain rfl := hstream
    exact host.unfelt_changeComer (host.mem_comers_of_attempt hmem) _
  | @setsClock attempt link deadline _ hmem hstream =>
    obtain rfl := hstream
    let changed := host.changeLink attempt.transport fun _ => link
    have hset : changed.Unfelt (changed.setTimer ⟨deadline, .opening attempt.transport⟩) :=
      .of_core rfl rfl rfl
    exact (host.unfelt_changeComer (host.mem_comers_of_attempt hmem) _).trans
      (hset.trans (unfelt_putAttempt _ _))
  | @ends attempt link outcome _ hmem hstream =>
    obtain rfl := hstream
    let changed := host.changeLink attempt.transport fun _ => link
    exact (host.unfelt_changeComer (host.mem_comers_of_attempt hmem) _).trans
      (changed.unfelt_finishAttempt (List.mem_map_of_mem hmem) outcome)

/-! ## The acceptor -/

theorem unfelt_dismiss (arrival : Arrival) : host.Unfelt (host.dismiss arrival) := by
  cases arrival with
  | stream transport peer => exact host.unfelt_release transport
  | failure fault => exact .refl host

theorem unfelt_dismissAll (arrivals : List Arrival) :
    host.Unfelt (arrivals.foldl dismiss host) := by
  induction arrivals generalizing host with
  | nil => exact .refl host
  | cons arrival arrivals ih => exact (host.unfelt_dismiss arrival).trans (ih _)

/-- Of those that wait to be accepted some may be left out. -/
theorem unfelt_dropArrivals {host' : Host}
    (hcore : host'.core = { host.core with arrivals := host'.arrivals })
    (happlication : host'.application = host.application)
    (hhistory : host'.records.history = host.records.history)
    (h : host'.arrivals.Sublist host.arrivals) : host.Unfelt host' := by
  simp only [core, Core.mk.injEq] at hcore
  obtain ⟨hengine, hrunning, hcompletions, hrequests, hlinks, hjobs, hattempts, -⟩ := hcore
  refine host.unfelt_of_stages ?_ happlication hhistory ⟨[], ?_, rfl⟩ fun transport => ?_
  · simp only [core, hengine, hrunning, hrequests, hlinks, hjobs]
  · rw [hcompletions, List.append_nil]
  · rw [hcompletions, hattempts]
    exact Nat.add_le_add_right ((h.filterMap _).count_le transport) _

theorem unfelt_endAccepting : host.Unfelt host.endAccepting := by
  have hdrop : host.Unfelt { host with acceptor := host.acceptor.finish, arrivals := [] } :=
    host.unfelt_dropArrivals rfl rfl rfl (List.nil_sublist _)
  exact hdrop.trans (unfelt_dismissAll _ host.arrivals)

/-- The first stream that waits to be accepted belongs to an attempt now. -/
theorem unfelt_accept {transport : Transport} {peer : SocketAddress}
    (h : host.arrivals.head? = some (.stream transport peer)) (acceptor : Acceptor)
    (cleared : Bool) :
    host.Unfelt (beginAttempt { host with
      acceptor := acceptor, arrivals := host.arrivals.tail, cleared := cleared } transport peer) := by
  refine Unfelt.trans ?_ (unfelt_wake _ _)
  refine host.unfelt_of_stages rfl rfl rfl ⟨[], (List.append_nil _).symm, rfl⟩ ?_
  intro other
  have hfirst : (host.arrivals.filterMap (·.stream?)).count other =
      (host.arrivals.tail.filterMap (·.stream?)).count other + [transport].count other := by
    cases harrivals : host.arrivals with
    | nil =>
      rw [harrivals] at h
      cases h
    | cons arrival later =>
      rw [harrivals] at h
      cases h
      show (transport :: later.filterMap _).count other = _
      rw [List.count_cons, List.count_singleton]
      rfl
  have hlast : ((host.attempts ++ [Attempt.mk transport (some peer) none .start]).map
      (·.transport)).count other =
        (host.attempts.map (·.transport)).count other + [transport].count other := by
    rw [List.map_append, List.count_append]
    rfl
  rw [hfirst]
  show (host.arrivals.tail.filterMap (·.stream?)).count other +
    (((host.attempts ++ [Attempt.mk transport (some peer) none .start]).map
      (·.transport)).count other + (host.completions.filterMap broughtStream).count other) ≤ _
  rw [hlast]
  omega

theorem unfelt_acceptorTurn : host.Unfelt host.acceptorTurn.1 := by
  have hpart := host.acceptorPart
  generalize host.acceptorTurn = outcome at hpart
  cases hpart with
  | looks | asks | resumes | idles => exact .of_core rfl rfl rfl
  | ends => exact host.unfelt_endAccepting
  | accepts _ _ hfirst => exact host.unfelt_accept hfirst _ _
  | fails => exact host.unfelt_dropArrivals rfl rfl rfl (List.tail_sublist _)

/-! ## From outside -/

theorem unfelt_refuse : host.Unfelt host.refuse := by
  unfold refuse
  split
  · exact .refl host
  · refine Unfelt.trans ?_ (unfelt_wakeAll _ _)
    exact .of_core rfl rfl rfl

theorem unfelt_releaseAll (transports : List Transport) :
    host.Unfelt (transports.foldl release host) := by
  induction transports generalizing host with
  | nil => exact .refl host
  | cons transport transports ih => exact (host.unfelt_release transport).trans (ih _)

/-- The host when its engine takes no more mail. -/
def closed (host : Host) : Host :=
  { host with running := false, completions := [], requests := .empty }

theorem unfelt_retire : host.closed.Unfelt host.retire :=
  (unfelt_releaseAll host.closed _).trans (unfelt_refuse _)

/-- A stream with the next number is a new one. -/
theorem count_next (first transport : Nat) :
    [first].count transport = fresh first (first + 1) transport := by
  unfold fresh
  by_cases heq : first = transport
  · subst heq
    rw [List.count_singleton_self, if_pos (by omega)]
  · have hnot : transport ∉ [first] := by
      simpa using fun h => heq h.symm
    rw [List.count_eq_zero_of_not_mem hnot, if_neg (by omega)]

/-- A new stream waits to be accepted. -/
theorem unfelt_addArrival (capacity : Nat) (peer : SocketAddress) :
    host.Unfelt { host with
      links := host.links ++ [.new capacity]
      arrivals := host.arrivals ++ [.stream host.links.length peer] } where
  engine := rfl
  running := rfl
  requests := ⟨[], (List.append_nil _).symm⟩
  completions := ⟨[], (List.append_nil _).symm, rfl⟩
  tickets := rfl
  writings := rfl
  readings := rfl
  links := by simp
  comers := by
    intro transport
    have hnew : ((host.arrivals ++ [Arrival.stream host.links.length peer]).filterMap
        (·.stream?)).count transport = (host.arrivals.filterMap (·.stream?)).count transport +
          [host.links.length].count transport := by
      rw [List.filterMap_append, List.count_append]
      rfl
    rw [count_comers, count_comers]
    show ((host.arrivals ++ [Arrival.stream host.links.length peer]).filterMap
      (·.stream?)).count transport + ((host.attempts.map (·.transport)).count transport +
        (host.completions.filterMap broughtStream).count transport) ≤
          _ + fresh host.links.length (host.links ++ [Link.new capacity]).length transport
    rw [hnew, count_next, List.length_append, List.length_singleton]
    omega
  outbound := fun transport _ _ => elim_append (by simp [Link.new, Pipe.new]) transport
  application := rfl
  history := rfl
  asks := rfl
  inbound := fun transport _ _ => elim_append (by simp [Link.new, Pipe.new]) transport

theorem unfelt_arrive (capacity : Nat) (peer : SocketAddress) :
    host.Unfelt (host.arrive capacity peer).1 := by
  unfold arrive
  split
  · exact .refl host
  · refine Unfelt.trans ?_ (unfelt_wake _ _)
    exact host.unfelt_addArrival capacity peer

theorem unfelt_arriveBroken (fault : Fault) : host.Unfelt (host.arriveBroken fault).1 := by
  unfold arriveBroken
  split
  · exact .refl host
  · refine Unfelt.trans ?_ (unfelt_wake _ _)
    refine host.unfelt_of_stages rfl rfl rfl ⟨[], (List.append_nil _).symm, rfl⟩ ?_
    intro transport
    have hsame : (host.arrivals ++ [Arrival.failure fault]).filterMap (·.stream?) =
        host.arrivals.filterMap (·.stream?) := by
      rw [List.filterMap_append]
      exact List.append_nil _
    exact Nat.add_le_add_right (Nat.le_of_eq (congrArg (List.count transport) hsame)) _

theorem unfelt_clientShutDown (client : Transport) : host.Unfelt (host.clientShutDown client) :=
  (host.unfelt_changeLink (f := Link.shutDown) (fun _ => rfl) (fun _ => rfl) client).trans
    (unfelt_wakeAll _ _)

theorem unfelt_clientHangUp (client : Transport) : host.Unfelt (host.clientHangUp client) :=
  (host.unfelt_changeLink (f := Link.hangUp) (fun _ => rfl) (fun _ => rfl) client).trans
    (unfelt_wakeAll _ _)

/-- A client that writes changes its own stream at most, and nothing on its way to a client. -/
theorem quiet_clientWrite (client : Transport) (data : Bytes) :
    host.Quiet (host.clientWrite client data).1 := by
  unfold clientWrite
  split
  · exact .refl host
  · dsimp only
    split
    · exact .refl host
    · refine Quiet.trans ?_ (unfelt_wakeAll _ _).toQuiet
      exact { Quiet.refl host with
        links := Nat.le_of_eq (host.length_changeLink client _).symm
        comers := fun _ => Nat.le_add_right ..
        outbound := by
          intro transport _ _
          refine host.outbound_changeLink ?_ client transport
          intro link
          rfl }
    · exact .refl host

theorem quiet_dressed (other : Host) : host.Quiet (host.dressed other) := .of_core rfl

end Host

end WebSocket
