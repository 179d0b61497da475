import WebSocket.Hosting.Turn
import WebSocket.Proofs.Session.Courses

/-!
# The core of a host

The core of a host is its engine with the mail, the streams, the operations in flight and the
clients that come.  The rest is the clock, the order of turns, the acceptor's own state, and what is
recorded.  Giving tasks a turn, recording and reporting leave the core as it is.
-/

namespace WebSocket

/-- The transport, the connection and the kind of an operation, which a completion brings back. -/
abbrev Ticket := ConnectionId × Bool × Transport

def Operation.ticket : Operation → Ticket
  | read id reader _ => (id, true, reader)
  | write id writer _ => (id, false, writer)

def Job.ticket (job : Job) : Ticket := job.operation.ticket

def Completion.ticket? : Completion → Option Ticket
  | registered .. => none
  | read id reader _ _ => some (id, true, reader)
  | write id writer _ => some (id, false, writer)

/-- A frame on its way to a stream, and what is still to be put there. -/
structure Writing where
  id : ConnectionId
  transport : Transport
  frame : ServerFrame
  unsent : Bytes

/-- How far a write has come. -/
def Job.writing? (job : Job) : Option Writing :=
  match job.operation with
  | .read .. => none
  | .write id writer outgoing => some ⟨id, writer, outgoing.frame, job.unsent⟩

/-- A write of which nothing is done yet. -/
def Operation.writing? : Operation → Option Writing
  | read .. => none
  | write id writer outgoing => some ⟨id, writer, outgoing.frame, outgoing.frame.wire⟩

/-- A read, and the octets that it took away. -/
structure Reading where
  id : ConnectionId
  transport : Transport
  taken : Bytes

/-- What a read under way took away. -/
def Operation.reading? : Operation → Option Reading
  | read id reader input => some ⟨id, reader, input.toList⟩
  | write .. => none

/-- What a read under way took away; only the room for more has changed since. -/
def Job.reading? (job : Job) : Option Reading := job.operation.reading?

/-- What a read took away comes back first, and after it as many octets as the completion counts. -/
def Completion.Adds : Completion → Reading → Prop
  | read _ _ input (.ok n), reading =>
    reading.taken <+: input.toList ∧ input.toList.length = reading.taken.length + n
  | _, _ => True

theorem Job.ticket_new (underway : Loan → Bool) (operation : Operation) :
    (Job.new underway operation).ticket = operation.ticket := by
  cases operation <;> rfl

theorem Job.writing?_new (underway : Loan → Bool) (operation : Operation) :
    (Job.new underway operation).writing? = operation.writing? := by
  cases operation <;> rfl

theorem Job.reading?_new (underway : Loan → Bool) (operation : Operation) :
    (Job.new underway operation).reading? = operation.reading? := by
  cases operation with
  | read id reader input =>
    show some (Reading.mk id reader (input.prepare _ _).toList) = _
    rw [ReceiveBuffer.toList_prepare]
    rfl
  | write => rfl

namespace Host

/-- What a host consists of apart from the order of turns and what is recorded. -/
structure Core where
  engine : Engine
  running : Bool
  completions : List Completion
  requests : Fifo Request
  links : List Link
  jobs : List Job
  attempts : List Attempt
  arrivals : List Arrival

def core (host : Host) : Core :=
  ⟨host.engine, host.running, host.completions, host.requests, host.links, host.jobs,
    host.attempts, host.arrivals⟩

section

variable (host : Host)

/-- To let tasks go on makes the line longer, and whose turn it is and who stands in the line settle
how. -/
theorem exists_wakeAll (tasks : List Task) :
    ∃ more, ∀ other : Host, other.current = host.current → other.ready = host.ready →
      other.wakeAll tasks = { other with ready := other.ready ++ more } := by
  induction tasks generalizing host with
  | nil => exact ⟨[], fun other _ _ => by rw [List.append_nil]; rfl⟩
  | cons task tasks ih =>
    by_cases hstands : host.current = some task ∨ task ∈ host.ready
    · obtain ⟨more, hmore⟩ := ih host
      refine ⟨more, fun other hcurrent hready => ?_⟩
      have hwake : other.wake task = other := if_pos (by rwa [hcurrent, hready])
      show (other.wake task).wakeAll tasks = _
      rw [hwake]
      exact hmore other hcurrent hready
    · obtain ⟨more, hmore⟩ := ih { host with ready := host.ready ++ [task] }
      refine ⟨task :: more, fun other hcurrent hready => ?_⟩
      have hwake : other.wake task = { other with ready := other.ready ++ [task] } :=
        if_neg (by rwa [hcurrent, hready])
      have hlater := hmore (other.wake task)
      rw [hwake] at hlater
      show (other.wake task).wakeAll tasks = _
      rw [hwake, hlater hcurrent (congrArg (· ++ [task]) hready), List.append_assoc]
      rfl

theorem exists_wake (task : Task) :
    ∃ more, ∀ other : Host, other.current = host.current → other.ready = host.ready →
      other.wake task = { other with ready := other.ready ++ more } :=
  host.exists_wakeAll [task]

theorem giveNext_eq : ∃ current ready pacing,
    host.giveNext = { host with current := current, ready := ready, pacing := pacing } := by
  have hround : ∃ current ready pacing,
      host.beginRound = { host with current := current, ready := ready, pacing := pacing } := by
    unfold beginRound wake
    dsimp only
    split <;> split <;> exact ⟨_, _, _, rfl⟩
  unfold giveNext
  split
  · split <;> exact ⟨_, _, _, rfl⟩
  · split
    · exact ⟨_, _, _, rfl⟩
    · exact hround

/-- What a step comes to. -/
inductive StepPart : Host → Prop
  /-- The next task gets its turn, if there is one. -/
  | gives (current : Option Task) (ready : List Task) (pacing : Pacing) : host.current = none →
      StepPart { host with current := current, ready := ready, pacing := pacing }
  /-- A task takes part of its turn. -/
  | continues {task : Task} : host.current = some task → StepPart (host.turn task).1
  /-- A task takes the last part of its turn, and may stand in line again. -/
  | ends {task : Task} (more : List Task) : host.current = some task →
      StepPart { (host.turn task).1 with
        current := none, cleared := false, ready := (host.turn task).1.ready ++ more }

theorem stepPart : host.StepPart host.step := by
  unfold step
  cases hcurrent : host.current with
  | none =>
    obtain ⟨current, ready, pacing, hnext⟩ := host.giveNext_eq
    exact hnext ▸ .gives current ready pacing hcurrent
  | some task =>
    have hcontinues := StepPart.continues hcurrent
    have hends (more : List Task) := StepPart.ends more hcurrent
    dsimp only
    generalize host.turn task = outcome at hcontinues hends
    obtain ⟨next, ending⟩ := outcome
    cases ending with
    | continued => exact hcontinues
    | waiting =>
      have hrests := hends []
      rwa [List.append_nil] at hrests
    | deferred =>
      obtain ⟨more, hmore⟩ := next.endTurn.exists_wake task
      dsimp only
      rw [hmore next.endTurn rfl rfl]
      exact hends more

@[simp] theorem core_wakeAll (tasks : List Task) : (host.wakeAll tasks).core = host.core := by
  obtain ⟨more, hmore⟩ := host.exists_wakeAll tasks
  rw [hmore host rfl rfl]
  rfl

@[simp] theorem core_wake (task : Task) : (host.wake task).core = host.core :=
  host.core_wakeAll [task]

@[simp] theorem links_wakeAll (tasks : List Task) : (host.wakeAll tasks).links = host.links :=
  congrArg Core.links (host.core_wakeAll tasks)

/-- Whoever reports to an engine that takes mail reports to it, and lets it go on. -/
theorem exists_complete (hrunning : host.running = true) (completion : Completion) :
    ∃ more, host.complete completion = { host with
      completions := host.completions ++ [completion], ready := host.ready ++ more } := by
  obtain ⟨more, hmore⟩ := host.exists_wake .engine
  exact ⟨more, (if_pos hrunning).trans
    (hmore { host with completions := host.completions ++ [completion] } rfl rfl)⟩

/-- An engine that takes no mail leaves a stream to be let go. -/
theorem complete_of_not_running (hrunning : ¬ host.running = true) (completion : Completion) :
    host.complete completion = (broughtStream completion).elim host host.release := by
  cases completion <;> exact if_neg hrunning

end

/-- The octets that a stream holds on their way to the host. -/
def inbound (host : Host) (transport : Transport) : Bytes :=
  (host.links[transport]?).elim [] (·.inbound.content.toList)

/-- The octets that a stream holds on their way to its client. -/
def outbound (host : Host) (transport : Transport) : Bytes :=
  (host.links[transport]?).elim [] (·.outbound.content.toList)

/-- A change that leaves one part of a link as it is leaves it so on every stream. -/
theorem elim_changeLink (host : Host) {f : Link → Link} {part : Link → Bytes}
    (h : ∀ link, part (f link) = part link) (changed transport : Transport) :
    ((host.changeLink changed f).links[transport]?).elim [] part =
      (host.links[transport]?).elim [] part := by
  simp only [changeLink, List.getElem?_modify]
  cases host.links[transport]? with
  | none => rfl
  | some link =>
    show part (if changed = transport then f link else link) = part link
    split
    · exact h link
    · rfl

/-- A change of a link is felt by no other stream. -/
theorem links_changeLink_of_ne (host : Host) (f : Link → Link) {changed transport : Transport}
    (h : changed ≠ transport) :
    (host.changeLink changed f).links[transport]? = host.links[transport]? := by
  simp only [changeLink, List.getElem?_modify, if_neg h, Option.map_eq_map, Option.map_id']

/-- A change of a link that leaves what is on its way to the host is felt by no stream. -/
theorem inbound_changeLink (host : Host) {f : Link → Link}
    (h : ∀ link, (f link).inbound.content = link.inbound.content) (changed transport : Transport) :
    (host.changeLink changed f).inbound transport = host.inbound transport :=
  host.elim_changeLink (fun link => congrArg Fifo.toList (h link)) changed transport

theorem inbound_changeLink_of_ne (host : Host) (f : Link → Link) {changed transport : Transport}
    (h : changed ≠ transport) :
    (host.changeLink changed f).inbound transport = host.inbound transport := by
  rw [inbound, host.links_changeLink_of_ne f h]
  rfl

theorem inbound_changeLink_self {host : Host} {transport : Transport} {link : Link}
    (hlink : host.links[transport]? = some link) (f : Link → Link) :
    (host.changeLink transport f).inbound transport = (f link).inbound.content.toList := by
  simp only [inbound, changeLink, List.getElem?_modify_eq, hlink]
  rfl

theorem inbound_of_link {host : Host} {transport : Transport} {link : Link}
    (hlink : host.links[transport]? = some link) :
    host.inbound transport = link.inbound.content.toList := by
  rw [inbound, hlink]
  rfl

/-- A change of a link that leaves what is on its way to the client is felt by no stream. -/
theorem outbound_changeLink (host : Host) {f : Link → Link}
    (h : ∀ link, (f link).outbound.content = link.outbound.content) (changed transport : Transport) :
    (host.changeLink changed f).outbound transport = host.outbound transport :=
  host.elim_changeLink (fun link => congrArg Fifo.toList (h link)) changed transport

theorem outbound_changeLink_of_ne (host : Host) (f : Link → Link) {changed transport : Transport}
    (h : changed ≠ transport) :
    (host.changeLink changed f).outbound transport = host.outbound transport := by
  rw [outbound, host.links_changeLink_of_ne f h]
  rfl

theorem length_changeLink (host : Host) (changed : Transport) (f : Link → Link) :
    (host.changeLink changed f).links.length = host.links.length :=
  List.length_modify ..

/-- New streams on which nothing is under way are felt by none. -/
theorem elim_append {links more : List Link} {part : Link → Bytes}
    (h : ∀ link ∈ more, part link = []) (transport : Transport) :
    ((links ++ more)[transport]?).elim [] part = (links[transport]?).elim [] part := by
  rcases Nat.lt_or_ge transport links.length with hold | hnew
  · rw [List.getElem?_append_left hold]
  · rw [List.getElem?_append_right hnew, List.getElem?_eq_none hnew]
    cases hlink : more[transport - links.length]? with
    | none => rfl
    | some link => exact h link (List.mem_of_getElem? hlink)

end Host

end WebSocket
