import WebSocket.Proofs.Hosting.Quiet

/-!
# Steps of operations

A read or a write whose turn it is may put octets on its stream, and then it goes on, or it ends
with a completion that bears its ticket (`Job.Steps`).  What a write has put there and what it has
still to put there are always its whole frame, and when it ends well it has put all of it there.  A
read that ends well brings back what it took away and after that the octets that it counts.

In a host with one operation of each kind for a connection at most, a turn is a step of one
operation, and everything else stays as it is (`Host.advances_jobTurn`).
-/

namespace WebSocket

/-- What comes of a step of an operation that puts `part` on its stream. -/
inductive Job.Steps (job : Job) (part : Bytes) : Job ⊕ Completion → Prop
  /-- The operation goes on. -/
  | waits {waiting : Job} : waiting.operation = job.operation →
      job.unsent = part ++ waiting.unsent → Steps job part (.inl waiting)
  /-- The operation ends. -/
  | ends {completion : Completion} : completion.ticket? = some job.ticket → part <+: job.unsent →
      (∀ id writer, completion = .write id writer (.ok ()) → part = job.unsent) →
      (∀ reading, job.reading? = some reading → completion.Adds reading) →
      Steps job part (.inr completion)

namespace Job

theorem ticket_eq (job : Job) : job.ticket = (job.id, job.isRead, job.transport) := by
  obtain ⟨operation, unsent, cancelled⟩ := job
  cases operation <;> rfl

/-- A step that puts nothing on the stream, for a read or a write that ends badly. -/
theorem steps_nothing {job : Job} {completion : Completion}
    (hticket : completion.ticket? = some job.ticket)
    (hbad : ∀ id writer, completion ≠ .write id writer (.ok ()))
    (hadds : ∀ reading, job.reading? = some reading → completion.Adds reading) :
    job.Steps [] (.inr completion) :=
  .ends hticket List.nil_prefix (fun id writer h => absurd h (hbad id writer)) hadds

theorem steps_waiting (job : Job) : job.Steps [] (.inl job) := .waits rfl rfl

/-- A step adds to what is on its way to the client, and a read adds nothing. -/
theorem exists_steps (job : Job) (link : Link) :
    ∃ part, (job.step link).1.outbound.content.toList = link.outbound.content.toList ++ part ∧
      (job.isRead = true → part = []) ∧ job.Steps part (job.step link).2 := by
  obtain ⟨operation, unsent, cancelled⟩ := job
  have hnothing : link.outbound.content.toList = link.outbound.content.toList ++ [] :=
    (List.append_nil _).symm
  unfold step
  cases operation with
  | read id reader input =>
    refine ⟨[], ?_, fun _ => rfl, ?_⟩
    · rw [List.append_nil]
      dsimp only
      split
      · rfl
      · split <;> rfl
    · dsimp only
      split
      · exact steps_nothing rfl nofun fun _ _ => trivial
      · split
        · rename_i pipe data _
          refine steps_nothing rfl nofun fun reading hreading => ?_
          cases hreading
          show input.toList <+: (input.append data).toList ∧
            (input.append data).toList.length = input.toList.length + data.length
          rw [ReceiveBuffer.toList_append]
          exact ⟨List.prefix_append _ _, List.length_append⟩
        · refine steps_nothing rfl nofun fun reading hreading => ?_
          cases hreading
          exact ⟨List.prefix_refl _, rfl⟩
        · exact steps_waiting _
  | write id writer outgoing =>
    dsimp only
    split
    · exact ⟨[], hnothing, fun _ => rfl, steps_nothing rfl nofun fun _ _ => trivial⟩
    · split
      · exact ⟨[], hnothing, fun _ => rfl, steps_nothing rfl nofun fun _ _ => trivial⟩
      · exact ⟨[], hnothing, fun _ => rfl, steps_waiting _⟩
      -- Only here is something put on the stream: the first `n` octets of what is unsent.
      · rename_i pipe n hwrite
        obtain ⟨hcontent, -⟩ := Pipe.write_accepted hwrite
        refine ⟨unsent.take n, ?_, nofun, ?_⟩
        · split <;> exact hcontent
        · split
          · rename_i hempty
            refine .ends rfl (List.take_prefix n unsent) (fun _ _ _ => ?_) fun _ _ => trivial
            have hall := List.take_append_drop n unsent
            rw [List.isEmpty_iff.mp hempty, List.append_nil] at hall
            exact hall
          · exact .waits rfl (List.take_append_drop n unsent).symm

end Job

/-- What is found in a list where nothing else like it is. -/
theorem split_of_find? {α : Type} {p : α → Bool} {x : α} {xs : List α} (h : xs.find? p = some x)
    (hone : xs.countP p ≤ 1) :
    ∃ earlier later, xs = earlier ++ x :: later ∧ ∀ y, y ∈ earlier ∨ y ∈ later → p y = false := by
  obtain ⟨hx, earlier, later, rfl, hearlier⟩ := List.find?_eq_some_iff_append.mp h
  rw [List.countP_append, List.countP_cons, if_pos hx] at hone
  have hlater : later.countP p = 0 := by omega
  refine ⟨earlier, later, rfl, ?_⟩
  rintro y (hy | hy)
  · simpa using hearlier y hy
  · simpa using List.countP_eq_zero.mp hlater y hy

namespace Host

/-- What has become of the operations of a host when one of them has come to an outcome. -/
inductive Turned (host host' : Host) (job : Job) : Job ⊕ Completion → Prop
  | waits {earlier later : List Job} {waiting : Job} :
      host.jobs = earlier ++ job :: later → host'.jobs = earlier ++ waiting :: later →
      host'.completions = host.completions → Turned host host' job (.inl waiting)
  | ends {earlier later : List Job} {completion : Completion} :
      host.jobs = earlier ++ job :: later → host'.jobs = earlier ++ later →
      host'.completions = host.completions ++ [completion] →
      Turned host host' job (.inr completion)

/-- From one state of a host to another by a step of an operation that puts `part` on its
stream. -/
structure Advances (host host' : Host) (job : Job) (part : Bytes) : Prop where
  engine : host'.engine = host.engine
  running : host'.running = host.running
  requests : host'.requests = host.requests
  attempts : host'.attempts = host.attempts
  arrivals : host'.arrivals = host.arrivals
  links : host'.links.length = host.links.length
  outbound : ∀ transport : Nat, host'.outbound transport =
    host.outbound transport ++ if job.transport = transport then part else []
  reads : job.isRead = true → part = []
  turned : ∃ outcome, job.Steps part outcome ∧ host.Turned host' job outcome

variable {host : Host}

/-- What is on its way to the clients when something more has been put on one stream. -/
theorem outbound_changeLink_append {changed : Transport} {link link' : Link}
    (hlink : host.links[changed]? = some link) {part : Bytes}
    (h : link'.outbound.content.toList = link.outbound.content.toList ++ part)
    (transport : Transport) :
    (host.changeLink changed fun _ => link').outbound transport =
      host.outbound transport ++ if changed = transport then part else [] := by
  by_cases heq : changed = transport
  · subst heq
    rw [if_pos rfl]
    simp only [outbound, changeLink, List.getElem?_modify_eq, hlink, Option.elim]
    exact h
  · rw [if_neg heq, List.append_nil]
    exact host.outbound_changeLink_of_ne _ heq

/-- Only the operation of a task is put in another's place. -/
theorem map_task {earlier later : List Job} {job : Job}
    (hothers : ∀ other, other ∈ earlier ∨ other ∈ later → other.task ≠ job.task) (waiting : Job) :
    ((earlier ++ job :: later).map fun other => if other.task = job.task then waiting else other) =
      earlier ++ waiting :: later := by
  have hkeep (jobs : List Job) (h : ∀ other ∈ jobs, other.task ≠ job.task) :
      (jobs.map fun other => if other.task = job.task then waiting else other) = jobs := by
    rw [List.map_congr_left fun other hmem => if_neg (h other hmem), List.map_id']
  rw [List.map_append, List.map_cons, if_pos rfl, hkeep earlier fun j hj => hothers j (.inl hj),
    hkeep later fun j hj => hothers j (.inr hj)]

/-- Only the operation of a task is taken out. -/
theorem filter_task {earlier later : List Job} {job : Job}
    (hothers : ∀ other, other ∈ earlier ∨ other ∈ later → other.task ≠ job.task) :
    ((earlier ++ job :: later).filter (·.task ≠ job.task)) = earlier ++ later := by
  have hkeep (jobs : List Job) (h : ∀ other ∈ jobs, other.task ≠ job.task) :
      jobs.filter (·.task ≠ job.task) = jobs :=
    List.filter_eq_self.mpr fun other hmem => decide_eq_true (h other hmem)
  rw [List.filter_append, List.filter_cons_of_neg (by simp),
    hkeep earlier fun j hj => hothers j (.inl hj), hkeep later fun j hj => hothers j (.inr hj)]

theorem Advances.wake {host' : Host} {job : Job} {part : Bytes}
    (h : host.Advances host' job part) (task : Task) : host.Advances (host'.wake task) job part := by
  have hcore := host'.core_wake task
  simp only [core, Core.mk.injEq] at hcore
  obtain ⟨hengine, hrunning, hcompletions, hrequests, hlinks, hjobs, hattempts, harrivals⟩ := hcore
  exact {
    engine := hengine.trans h.engine
    running := hrunning.trans h.running
    requests := hrequests.trans h.requests
    attempts := hattempts.trans h.attempts
    arrivals := harrivals.trans h.arrivals
    links := by rw [hlinks]; exact h.links
    outbound := by
      intro transport
      rw [Host.outbound, hlinks]
      exact h.outbound transport
    reads := h.reads
    turned := by
      obtain ⟨outcome, hsteps, hturned⟩ := h.turned
      refine ⟨outcome, hsteps, ?_⟩
      cases hturned with
      | waits hbefore hafter hsame =>
        exact .waits hbefore (hjobs.trans hafter) (hcompletions.trans hsame)
      | ends hbefore hafter hmore =>
        exact .ends hbefore (hjobs.trans hafter) (hcompletions.trans hmore) }

/-- A turn of a read or a write is a step of it, if there is one. -/
theorem advances_jobTurn (hrunning : host.running = true) (task : Task)
    (hone : host.jobs.countP (·.task = task) ≤ 1) :
    host.jobTurn task = host ∨
      ∃ job part, job ∈ host.jobs ∧ host.Advances (host.jobTurn task) job part := by
  cases hfind : host.jobs.find? (·.task = task) with
  | none =>
    refine .inl ?_
    simp only [jobTurn, hfind]
  | some job =>
    cases hlink : host.links[job.transport]? with
    | none =>
      refine .inl ?_
      simp only [jobTurn, hfind, hlink]
    | some link =>
      obtain ⟨earlier, later, hjobs, hothers⟩ := split_of_find? hfind hone
      have htask : job.task = task := by simpa using List.find?_some hfind
      subst htask
      have hothers (other : Job) (hmem : other ∈ earlier ∨ other ∈ later) :
          other.task ≠ job.task := of_decide_eq_false (hothers other hmem)
      obtain ⟨part, hcontent, hreads, hsteps⟩ := job.exists_steps link
      have houtbound := outbound_changeLink_append hlink hcontent
      have hlength := host.length_changeLink job.transport fun _ => (job.step link).1
      refine .inr ⟨job, part, List.mem_of_find?_eq_some hfind, ?_⟩
      simp only [jobTurn, hfind, hlink]
      generalize job.step link = outcome at hcontent hsteps houtbound hlength
      obtain ⟨link', outcome⟩ := outcome
      cases outcome with
      | inl waiting =>
        exact {
          engine := rfl
          running := rfl
          requests := rfl
          attempts := rfl
          arrivals := rfl
          links := hlength
          outbound := houtbound
          reads := hreads
          turned := by
            refine ⟨.inl waiting, hsteps, .waits hjobs ?_ rfl⟩
            show host.jobs.map _ = _
            rw [hjobs]
            exact map_task hothers waiting }
      | inr completion =>
        simp only [complete, changeLink, hrunning, if_true]
        refine Advances.wake ?_ _
        exact {
          engine := rfl
          running := hrunning.symm
          requests := rfl
          attempts := rfl
          arrivals := rfl
          links := hlength
          outbound := houtbound
          reads := hreads
          turned := by
            refine ⟨.inr completion, hsteps, .ends hjobs ?_ rfl⟩
            show host.jobs.filter _ = _
            rw [hjobs]
            exact filter_task hothers }

end Host

end WebSocket
