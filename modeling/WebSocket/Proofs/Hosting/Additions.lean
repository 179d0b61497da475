import WebSocket.Proofs.Hosting.Core
import WebSocket.Proofs.Session.Posting

/-!
# What applications add to a host

Whatever an application posts, it adds to its host and changes nothing that is there: streams come,
and completions and requests wait for the engine, which can go on (`Addition`).  What is added
depends neither on the application itself nor on what is recorded (`Host.Grows`).  So of two hosts
whose applications post the same, effects make the same but for what is recorded, and that the
effects themselves settle (`Host.recast_performAll`).
-/

namespace WebSocket

theorem Fifo.toList_foldl_push {α : Type} (q : Fifo α) (xs : List α) :
    (xs.foldl Fifo.push q).toList = q.toList ++ xs := by
  induction xs generalizing q with
  | nil => exact (List.append_nil _).symm
  | cons x xs ih =>
    rw [List.foldl_cons, ih, Fifo.toList_push, List.append_assoc, List.singleton_append]

/-- Completions that bring streams, all of them new, between two numbers. -/
structure Brings (completions : List Completion) (first next : Nat) : Prop where
  tickets : completions.filterMap (·.ticket?) = []
  nodup : (completions.filterMap Host.broughtStream).Nodup
  new : ∀ transport : Nat, transport ∈ completions.filterMap Host.broughtStream →
    first ≤ transport ∧ transport < next

namespace Brings

variable {completions more : List Completion} {first middle next : Nat}

theorem nil (first next : Nat) : Brings [] first next :=
  ⟨rfl, .nil, nofun⟩

theorem append (h : Brings completions first middle) (h' : Brings more middle next)
    (hle : first ≤ middle) (hle' : middle ≤ next) : Brings (completions ++ more) first next where
  tickets := by rw [List.filterMap_append, h.tickets, h'.tickets, List.append_nil]
  nodup := by
    rw [List.filterMap_append, List.nodup_append]
    refine ⟨h.nodup, h'.nodup, ?_⟩
    intro a ha b hb hab
    subst hab
    have := h.new a ha
    have := h'.new a hb
    omega
  new transport hmem := by
    rw [List.filterMap_append, List.mem_append] at hmem
    rcases hmem with hmem | hmem
    · have := h.new transport hmem
      omega
    · have := h'.new transport hmem
      omega

end Brings

/-- What posts add to a host. -/
structure Addition where
  links : List Link
  completions : List Completion
  requests : List Request
  ready : List Task

namespace Addition

def append (a more : Addition) : Addition :=
  ⟨a.links ++ more.links, a.completions ++ more.completions, a.requests ++ more.requests,
    a.ready ++ more.ready⟩

/-- An addition to a host with so many streams. -/
structure Fits (a : Addition) (streams : Nat) : Prop where
  brings : Brings a.completions streams (streams + a.links.length)
  /-- Nothing is on its way on a stream that comes. -/
  silent : ∀ link ∈ a.links,
    link.inbound.content.toList = [] ∧ link.outbound.content.toList = []

variable {a more : Addition} {streams : Nat}

/-- Requests and tasks fit whatever streams there are. -/
theorem fits_requests (requests : List Request) (ready : List Task) (streams : Nat) :
    (⟨[], [], requests, ready⟩ : Addition).Fits streams :=
  ⟨.nil _ _, nofun⟩

theorem Fits.append (h : a.Fits streams) (h' : more.Fits (streams + a.links.length)) :
    (a.append more).Fits streams where
  brings := by
    have hbrings := h.brings.append h'.brings (Nat.le_add_right ..) (Nat.le_add_right ..)
    rwa [Nat.add_assoc, ← List.length_append] at hbrings
  silent link hmem := (List.mem_append.mp hmem).elim (h.silent link) (h'.silent link)

end Addition

namespace Host

def adding (host : Host) (a : Addition) : Host :=
  { host with
    links := host.links ++ a.links
    completions := host.completions ++ a.completions
    requests := a.requests.foldl Fifo.push host.requests
    ready := host.ready ++ a.ready }

theorem adding_append (host : Host) (a more : Addition) :
    (host.adding a).adding more = host.adding (a.append more) := by
  simp only [adding, Addition.append, List.append_assoc, List.foldl_append]

/-- An addition of places in line only. -/
theorem adding_ready (host : Host) (ready : List Task) :
    host.adding ⟨[], [], [], ready⟩ = { host with ready := host.ready ++ ready } := by
  simp only [adding, List.append_nil, List.foldl_nil]

/-- The host with another application, and with records of its own. -/
def recast (host : Host) (application : Application) (records : Records) : Host :=
  { host with application := application, records := records }

/-- A change adds something to a host, whatever its application and its records are; `frames` are
those that are sent to connections with it. -/
def Grows (host : Host) (change : Host → Host) (frames : ConnectionId → List ServerFrame) : Prop :=
  ∃ a : Addition, a.Fits host.links.length ∧
    (host.running = true → ∀ id, sendsTo id a.requests = frames id) ∧
    ∀ application records, change (host.recast application records) =
      (host.recast application records).adding a

namespace Grows

variable {host : Host} {change later : Host → Host}
  {frames more : ConnectionId → List ServerFrame}

theorem refl (host : Host) : host.Grows id fun _ => [] :=
  ⟨⟨[], [], [], []⟩, Addition.fits_requests _ _ _, fun _ _ => rfl, fun _ _ => by
    rw [adding_ready, List.append_nil]
    rfl⟩

theorem trans (h : host.Grows change frames) (h' : (change host).Grows later more) :
    host.Grows (later ∘ change) fun id => frames id ++ more id := by
  obtain ⟨a, hfits, hframes, hchange⟩ := h
  have hhost : change host = host.adding a := hchange host.application host.records
  rw [hhost] at h'
  obtain ⟨b, hfits', hframes', hlater⟩ := h'
  refine ⟨a.append b, hfits.append ?_, fun hrunning id => ?_, fun application records => ?_⟩
  · rwa [← List.length_append]
  · rw [Addition.append, sendsTo_append, hframes hrunning, hframes' hrunning]
  · rw [← adding_append, Function.comp_apply, hchange]
    exact hlater application records

/-- To let tasks go on adds places in line. -/
theorem of_wakeAll (host : Host) (tasks : List Task) : host.Grows (·.wakeAll tasks) fun _ => [] := by
  obtain ⟨more, hmore⟩ := host.exists_wakeAll tasks
  refine ⟨⟨[], [], [], more⟩, Addition.fits_requests _ _ _, fun _ _ => rfl, fun application records => ?_⟩
  rw [adding_ready]
  exact hmore _ rfl rfl

end Grows

variable (host : Host)

/-! ## Posts -/

/-- Nothing is asked of an engine that takes no mail. -/
theorem grows_request (request : Request) :
    host.Grows (fun h => (h.request request).1) fun id => (request.frameTo? id).toList := by
  by_cases hrunning : host.running = true
  · obtain ⟨more, hmore⟩ := host.exists_wake .engine
    refine ⟨⟨[], [], [request], more⟩, Addition.fits_requests _ _ _, fun _ id => ?_, fun _ _ => ?_⟩
    · cases hframe : request.frameTo? id <;> simp [sendsTo, hframe]
    · simp only [Host.request, recast, hrunning, if_true, adding, List.append_nil]
      exact hmore _ rfl rfl
  · refine ⟨⟨[], [], [], []⟩, Addition.fits_requests _ _ _, fun hon => absurd hon hrunning, fun _ _ => ?_⟩
    simp only [Host.request, recast, hrunning, Bool.false_eq_true, if_false, adding,
      List.append_nil, List.foldl_nil]

/-- A stream that is brought in is new. -/
theorem grows_connect (capacity : Nat) (leftover : Bytes) :
    host.Grows (fun h => (h.connect capacity leftover).1) fun _ => [] := by
  by_cases hrunning : host.running = true
  · obtain ⟨more, hmore⟩ := host.exists_wake .engine
    refine ⟨⟨[.new capacity], [.registered host.links.length none (.ofOctets leftover)], [], more⟩,
      ⟨⟨rfl, by simp [broughtStream], ?_⟩, ?_⟩, fun _ _ => rfl, fun _ _ => ?_⟩
    · intro transport hmem
      have heq : transport = host.links.length := by simpa [broughtStream] using hmem
      simp [heq]
    · intro link hmem
      rw [List.mem_singleton.mp hmem]
      exact ⟨rfl, rfl⟩
    · simp only [connect, addLink, complete, recast, hrunning, if_true, adding, List.foldl_nil]
      exact hmore _ rfl rfl
  · refine ⟨⟨[(Link.new capacity).release], [], [], []⟩, ⟨.nil _ _, ?_⟩,
      fun hon => absurd hon hrunning, fun _ _ => ?_⟩
    · intro link hmem
      rw [List.mem_singleton.mp hmem]
      exact ⟨rfl, rfl⟩
    · simp [connect, addLink, complete, recast, hrunning, adding, release, changeLink,
        List.modify_eq_take_drop]

end Host

/-- The frame that a post about an event sends to a connection. -/
def Post.frameTo? (id : ConnectionId) (event : Event) : Post → Option ServerFrame
  | request r => r.frameTo? id
  | forward target =>
    match event with
    | .message message => if target = id then some message.frame else none
    | _ => none
  | connect _ => none

namespace Host

variable (host : Host)

theorem grows_post (id : ConnectionId) (event : Event) (p : Post) :
    host.Grows (post id event · p) fun other => (p.frameTo? other event).toList := by
  cases p with
  | request request => exact host.grows_request request
  | forward target =>
    cases event with
    | message message => exact host.grows_request (.send target message (host.loanOf id message))
    | newConnection => exact .refl host
    | disconnect => exact .refl host
  | connect leftover => exact host.grows_connect _ leftover

/-- An application can do no more than add to its host. -/
theorem grows_posts (id : ConnectionId) (event : Event) (posts : List Post) :
    host.Grows (posts.foldl (post id event) ·) fun other =>
      posts.filterMap (·.frameTo? other event) := by
  induction posts generalizing host with
  | nil => exact .refl host
  | cons p posts ih =>
    have hgrows := (host.grows_post id event p).trans (ih (post id event host p))
    have hframes : (fun other => (p :: posts).filterMap (·.frameTo? other event)) =
        fun other => (p.frameTo? other event).toList ++
          posts.filterMap (·.frameTo? other event) := by
      funext other
      cases hframe : p.frameTo? other event <;> simp [hframe]
    rw [hframes]
    exact hgrows

end Host

/-! ## Effects -/

/-- The records when an effect has been carried out for an application. -/
def Records.after (application : Application) (r : Records) : Effect → Records
  | .deliver id event =>
    let told := { r with history := (id, event) :: r.history }
    match (application r.history id event).panic with
    | none => told
    | some payload => (told.count (.error .panic)).report (.panicked id event payload)
  | .count sample => r.count sample
  | .report notice => r.report notice
  | .queued .. | .start _ | .cancel _ | .release _ => r

namespace Host

variable (host : Host)

/-- What the host of an application becomes when that is told of an event. -/
theorem exists_deliver (id : ConnectionId) (event : Event) (posts : List Post) :
    ∃ a : Addition, a.Fits host.links.length ∧
      (host.running = true → ∀ other, sendsTo other a.requests =
        posts.filterMap (·.frameTo? other event)) ∧
      ∀ application records, (application records.history id event).posts = posts →
        (host.recast application records).deliver id event =
          ((host.adding a).recast application (records.after application (.deliver id event))) := by
  obtain ⟨a, hfits, hframes, hposts⟩ := host.grows_posts id event posts
  refine ⟨a, hfits, hframes, fun application records hsame => ?_⟩
  have hadds := hposts application { records with history := (id, event) :: records.history }
  unfold deliver
  simp only [Records.after]
  rw [show (host.recast application records).application
    (host.recast application records).records.history id event =
      application records.history id event from rfl, hsame]
  cases (application records.history id event).panic with
  | none => exact hadds
  | some payload => exact congrArg (fun h : Host => (h.count (.error .panic)).report _) hadds

theorem exists_start (operation : Operation) :
    ∃ more, ∀ application records, (host.recast application records).start operation =
      { host.recast application records with
        jobs := host.jobs ++ [Job.new host.underway operation], ready := host.ready ++ more } := by
  obtain ⟨more, hmore⟩ := host.exists_wake (Job.new host.underway operation).task
  exact ⟨more, fun application records => hmore { host.recast application records with
    jobs := host.jobs ++ [Job.new host.underway operation] } rfl rfl⟩

/-- The jobs when those of a connection have been given up. -/
def givenUp (id : ConnectionId) (jobs : List Job) : List Job :=
  jobs.map fun job => if job.id = id then { job with cancelled := true } else job

theorem exists_cancel (id : ConnectionId) :
    ∃ more, ∀ application records, (host.recast application records).cancel id =
      { host.recast application records with
        jobs := givenUp id host.jobs, ready := host.ready ++ more } := by
  obtain ⟨more, hmore⟩ := host.exists_wakeAll
    (((givenUp id host.jobs).filter fun job => job.id = id).map Job.task)
  exact ⟨more, fun application records => hmore { host.recast application records with
    jobs := givenUp id host.jobs } rfl rfl⟩

/-- Apart from the records, an effect depends on an application by its posts only. -/
theorem recast_perform (effect : Effect) {application : Application} {records : Records}
    (hposts : ∀ history id event,
      (application history id event).posts = (host.application history id event).posts)
    (hhistory : records.history = host.records.history) :
    (host.recast application records).perform effect =
      (host.perform effect).recast application (records.after application effect) := by
  cases effect with
  | deliver id event =>
    obtain ⟨a, -, -, hdeliver⟩ := host.exists_deliver id event
      (host.application host.records.history id event).posts
    have hown : host.perform (.deliver id event) = _ :=
      hdeliver host.application host.records rfl
    rw [hown]
    exact hdeliver application records (by rw [hposts, hhistory])
  | start operation =>
    obtain ⟨more, hstart⟩ := host.exists_start operation
    have hown : host.perform (.start operation) = _ := hstart host.application host.records
    rw [hown]
    exact hstart application records
  | cancel id =>
    obtain ⟨more, hcancel⟩ := host.exists_cancel id
    have hown : host.perform (.cancel id) = _ := hcancel host.application host.records
    rw [hown]
    exact hcancel application records
  | queued | release | count | report => rfl

theorem history_after (application : Application) (r : Records) (effect : Effect)
    (application' : Application) (r' : Records) (h : r'.history = r.history) :
    (r'.after application' effect).history = (r.after application effect).history := by
  cases effect with
  | deliver id event =>
    simp only [Records.after]
    split <;> split <;> exact congrArg ((id, event) :: ·) h
  | queued | start | cancel | release | count | report => exact h

/-- Effects make the same of two hosts whose applications post the same, but for the records. -/
theorem recast_performAll (effects : List Effect) {application : Application} {records : Records}
    (hposts : ∀ history id event,
      (application history id event).posts = (host.application history id event).posts)
    (hhistory : records.history = host.records.history) :
    effects.foldl perform (host.recast application records) =
      (effects.foldl perform host).recast application
        (effects.foldl (Records.after application) records) := by
  induction effects generalizing host records with
  | nil => rfl
  | cons effect effects ih =>
    have hown : host.perform effect = (host.perform effect).recast host.application
        (host.records.after host.application effect) :=
      host.recast_perform effect (fun _ _ _ => rfl) rfl
    have happlication := congrArg Host.application hown
    have hrecords := congrArg Host.records hown
    rw [List.foldl_cons, List.foldl_cons, List.foldl_cons,
      host.recast_perform effect hposts hhistory]
    refine ih (host.perform effect) (fun history id event => ?_) ?_
    · rw [happlication]
      exact hposts history id event
    · rw [hrecords]
      exact history_after _ _ effect _ _ hhistory

end Host

end WebSocket
