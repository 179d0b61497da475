import WebSocket.Proofs.Hosting.Delivery
import WebSocket.Proofs.Session.Conveyance

/-!
# What comes from a client

A read of a host takes the input of a connection away and brings it back with octets of the stream
behind it.  So a read that is under way has just what a read of the course took away, and the
completion of a read adds to that (`Scene.Lends`).  In whatever order the tasks of a host take
turns, the mail of its engine is therefore that of a conveyed course (`Scene.Truthful.run`).
-/

namespace WebSocket

theorem Operation.ticket_of_reading {o : Operation} {reading : Reading}
    (h : o.reading? = some reading) : o.ticket = (reading.id, true, reading.transport) := by
  cases o with
  | read =>
    cases h
    rfl
  | write => cases h

theorem Job.ticket_of_reading {job : Job} {reading : Reading} (h : job.reading? = some reading) :
    job.ticket = (reading.id, true, reading.transport) :=
  Operation.ticket_of_reading h

/-- Mail that ends an operation bears its ticket. -/
theorem Mail.ticket_of_ends {mail : Mail} {o : Operation} (h : mail.ends o = true) :
    mail.ticket? = some o.ticket := by
  cases hticket : mail.ticket? with
  | none =>
    rw [Mail.ends_of_no_ticket hticket] at h
    cases h
  | some ticket =>
    rw [Mail.ends_of_ticket hticket] at h
    rw [eq_of_beq h]

/-- The operations in flight differ in their tickets. -/
theorem Reached.eq_of_ticket {limit : Nat} {mails : List Mail} {s : Course}
    (h : Reached limit mails s) {o o' : Operation} (hmem : o ∈ s.inFlight) (hmem' : o' ∈ s.inFlight)
    (hsame : o.ticket = o'.ticket) : o = o' := by
  have hread {o : Operation} (hmem : o ∈ s.inFlight) (hread : o.isRead = true) :
      o ∈ s.readsOf o.id := List.mem_filter.mpr ⟨hmem, by simp [hread]⟩
  have hwrite {o : Operation} (hmem : o ∈ s.inFlight) (hread : o.isRead = false) :
      o ∈ s.writesOf o.id := List.mem_filter.mpr ⟨hmem, by simp [hread]⟩
  cases o with
  | read id reader input =>
    cases o' with
    | write => cases hsame
    | read other taker taken =>
      obtain rfl : id = other := congrArg Prod.fst hsame
      exact eq_of_length_le_one (h.single id).1 (hread hmem rfl) (hread hmem' rfl)
  | write id writer outgoing =>
    cases o' with
    | read => cases hsame
    | write other taker held =>
      obtain rfl : id = other := congrArg Prod.fst hsame
      exact eq_of_length_le_one (h.single id).2 (hwrite hmem rfl) (hwrite hmem' rfl)

namespace Scene

/-- The reads of a host have taken away what the reads of a course did. -/
structure Lends (σ : Scene) (s : Course) : Prop where
  underway : ∀ reading ∈ σ.host.jobs.filterMap (·.reading?),
    ∃ o ∈ s.inFlight, o.reading? = some reading
  ended : ∀ completion ∈ σ.host.completions, ∀ ticket, completion.ticket? = some ticket →
    ∃ o ∈ s.inFlight, o.ticket = ticket ∧
      ∀ reading, o.reading? = some reading → completion.Adds reading

variable {σ : Scene} {host : Host} {limit : Nat} {s : Course} {mail : Mail} {rest : Host}

theorem exists_reading {job : Job} {id : ConnectionId} {transport : Transport}
    (h : job.ticket = (id, true, transport)) : ∃ reading, job.reading? = some reading := by
  obtain ⟨operation, unsent, cancelled⟩ := job
  cases operation with
  | read => exact ⟨_, rfl⟩
  | write => cases h

/-- A ticket of the host is that of an operation in flight. -/
theorem Follows.exists_operation (h : σ.Follows limit s) {ticket : Ticket}
    (hmem : ticket ∈ σ.host.tickets) : ∃ o ∈ s.inFlight, o.ticket = ticket :=
  List.mem_map.mp (h.tickets.mem_iff.mpr hmem)

/-- An operation of which the rest of the host has the ticket is not the one that the mail ends. -/
theorem Follows.not_ends (h : σ.Follows limit s) (ht : σ.host.Takes rest mail) {o : Operation}
    (hmem : o.ticket ∈ rest.tickets) : mail.ends o = false := by
  by_contra hends
  rw [Bool.not_eq_false] at hends
  have hticket := Mail.ticket_of_ends hends
  -- The mail has the ticket too, but there is one of a kind for a connection at most.
  have hone := h.countP_tickets_le o.id o.isRead
  have hmine : Ticket.isOf o.id o.isRead o.ticket = true := by
    cases o <;> simp [Ticket.isOf, Operation.ticket, Operation.id, Operation.isRead]
  have hpos : 0 < rest.tickets.countP (Ticket.isOf o.id o.isRead) :=
    List.countP_pos_iff.mpr ⟨_, hmem, hmine⟩
  rw [(Follows.tickets_of_takes ht).countP_eq, hticket, Option.toList_some, List.singleton_append,
    List.countP_cons, if_pos hmine] at hone
  omega

namespace Lends

theorem quiet (h : σ.Lends s) (hq : σ.host.Quiet host) : (σ.become host).Lends s where
  underway := by
    show ∀ reading ∈ host.jobs.filterMap _, _
    rw [hq.readings]
    exact h.underway
  ended := by
    intro completion hmem ticket hticket
    obtain ⟨added, hadded, hnone⟩ := hq.completions
    have hmem : completion ∈ host.completions := hmem
    rw [hadded, List.mem_append] at hmem
    rcases hmem with hmem | hmem
    · exact h.ended completion hmem ticket hticket
    · have hsome : ticket ∈ added.filterMap (·.ticket?) :=
        List.mem_filterMap.mpr ⟨completion, hmem, hticket⟩
      rw [hnone] at hsome
      cases hsome

theorem takes (h : σ.Lends s) {taken : Transport → Bytes}
    (hcore : host.core = { σ.host.core with links := host.links }) :
    { σ with host := host, taken := taken }.Lends s := by
  simp only [Host.core, Host.Core.mk.injEq] at hcore
  obtain ⟨-, -, hcompletions, -, -, hjobs, -, -⟩ := hcore
  constructor
  · show ∀ reading ∈ host.jobs.filterMap _, _
    rw [hjobs]
    exact h.underway
  · show ∀ completion ∈ host.completions, _
    rw [hcompletions]
    exact h.ended

theorem retires (h : σ.Lends s) : { σ with host := σ.host.retire }.Lends s := by
  have hcloses : { σ with host := σ.host.closed }.Lends s := ⟨h.underway, nofun⟩
  rw [← become_retire]
  exact hcloses.quiet σ.host.unfelt_retire.toQuiet

/-- A step of a read brings back what it took away, and more. -/
theorem advances (h : σ.Lends s) (hf : σ.Follows limit s) {job : Job} {part : Bytes}
    (ha : σ.host.Advances host job part) : (σ.become host).Lends s := by
  obtain ⟨outcome, hsteps, hturned⟩ := ha.turned
  cases hturned with
  | @waits earlier later waiting hbefore hafter hsame =>
    cases hsteps with
    | waits hoperation =>
      have hreadings : host.jobs.filterMap (·.reading?) = σ.host.jobs.filterMap (·.reading?) := by
        rw [hbefore, hafter, List.filterMap_append, List.filterMap_append, List.filterMap_cons,
          List.filterMap_cons, Job.reading?, Job.reading?, hoperation]
      constructor
      · show ∀ reading ∈ host.jobs.filterMap _, _
        rw [hreadings]
        exact h.underway
      · show ∀ completion ∈ host.completions, _
        rw [hsame]
        exact h.ended
  | @ends earlier later completion hbefore hafter hmore =>
    cases hsteps with
    | ends hended _ _ hadds =>
      constructor
      · intro reading hmem
        have hmem : reading ∈ host.jobs.filterMap (·.reading?) := hmem
        refine h.underway reading ?_
        rw [hafter] at hmem
        rw [hbefore]
        exact ((List.Sublist.refl earlier).append (List.sublist_cons_self job later)).filterMap _
          |>.subset hmem
      · intro other hmem ticket hticket
        have hmem : other ∈ host.completions := hmem
        rw [hmore, List.mem_append, List.mem_singleton] at hmem
        rcases hmem with hmem | rfl
        · exact h.ended other hmem ticket hticket
        · obtain rfl : job.ticket = ticket := Option.some.inj (hended.symm.trans hticket)
          have hjob : job ∈ σ.host.jobs := by
            rw [hbefore]
            exact List.mem_append_right _ List.mem_cons_self
          obtain ⟨o, hflight, hsame⟩ := hf.exists_operation
            (List.mem_append_left _ (List.mem_map_of_mem hjob))
          refine ⟨o, hflight, hsame, fun reading hreading => hadds reading ?_⟩
          -- The job is a read, and what it took away is what the operation did.
          have hread := Operation.ticket_of_reading hreading
          rw [hsame] at hread
          obtain ⟨taken, htaken⟩ := exists_reading hread
          obtain ⟨o', hflight', hreading'⟩ :=
            h.underway taken (List.mem_filterMap.mpr ⟨job, hjob, htaken⟩)
          have hticket' : o'.ticket = o.ticket := by
            rw [hsame, Operation.ticket_of_reading hreading', Job.ticket_of_reading htaken]
          obtain rfl := hf.reached.eq_of_ticket hflight' hflight hticket'
          rw [htaken, ← hreading', hreading]

/-- Mail leaves the reads that it does not end as they are, and those that it begins take away what
they do in the course. -/
theorem handles (h : σ.Lends s) (hf : σ.Follows limit s) (ht : σ.host.Takes rest mail) :
    ((σ.take mail rest).become (rest.handle mail)).Lends (s.after mail) := by
  have hperforms := hf.performs ht
  have hkept {o : Operation} (hflight : o ∈ s.inFlight) (hmem : o.ticket ∈ rest.tickets) :
      o ∈ (s.after mail).inFlight := by
    refine List.mem_append_left _ ?_
    rw [List.mem_eraseP_of_neg]
    · exact hflight
    · rw [hf.not_ends ht hmem]
      decide
  constructor
  · intro reading hmem
    have hmem : reading ∈ (rest.handle mail).jobs.filterMap (·.reading?) := hmem
    rw [hperforms.readings, List.mem_append] at hmem
    rcases hmem with hmem | hmem
    · have hold : reading ∈ σ.host.jobs.filterMap (·.reading?) := by
        rw [← ht.jobs]
        exact hmem
      obtain ⟨o, hflight, hreading⟩ := h.underway reading hold
      refine ⟨o, hkept hflight ?_, hreading⟩
      obtain ⟨job, hjob, htaken⟩ := List.mem_filterMap.mp hmem
      rw [Operation.ticket_of_reading hreading, ← Job.ticket_of_reading htaken]
      exact List.mem_append_left _ (List.mem_map_of_mem hjob)
    · obtain ⟨o, hbegun, hreading⟩ := List.mem_filterMap.mp hmem
      exact ⟨o, List.mem_append_right _ hbegun, hreading⟩
  · intro completion hmem ticket hticket
    have hmem : completion ∈ (rest.handle mail).completions := hmem
    obtain ⟨added, hadded, hbrings⟩ := hperforms.completions
    rw [hadded, List.mem_append] at hmem
    rcases hmem with hmem | hmem
    · obtain ⟨first, hfirst, -, -, -⟩ := ht.completions
      have hold : completion ∈ σ.host.completions := by
        rw [hfirst]
        exact List.mem_append_right _ hmem
      obtain ⟨o, hflight, hsame, hadds⟩ := h.ended completion hold ticket hticket
      refine ⟨o, hkept hflight ?_, hsame, hadds⟩
      rw [hsame]
      exact List.mem_append_right _ (List.mem_filterMap.mpr ⟨completion, hmem, hticket⟩)
    · have hsome : ticket ∈ added.filterMap (·.ticket?) :=
        List.mem_filterMap.mpr ⟨completion, hmem, hticket⟩
      rw [hbrings.tickets] at hsome
      cases hsome

/-- The mail of a host conveys what it brings back. -/
theorem conveys (h : σ.Lends s) (hf : σ.Follows limit s) (ht : σ.host.Takes rest mail) :
    s.Conveys mail := by
  intro o hflight errand herrand hends
  have hmail : mail.ends o = true := by
    rw [Mail.ends, herrand]
    exact hends
  have hticket := Mail.ticket_of_ends hmail
  cases mail with
  | request => cases hticket
  | completion completion =>
    obtain ⟨first, hfirst, -, -, hmem⟩ := ht.completions
    have hpending : completion ∈ σ.host.completions := by
      rw [hfirst]
      exact List.mem_append_left _ (hmem completion rfl)
    obtain ⟨o', hflight', hsame, hadds⟩ := h.ended completion hpending o.ticket hticket
    obtain rfl := hf.reached.eq_of_ticket hflight' hflight hsame
    cases completion with
    | registered => cases herrand
    | read id reader input result =>
      rw [Mail.errandFor?_of_errand (rfl : Mail.errand? _ = some (id, .read reader input result))]
        at herrand
      split at herrand
      · cases herrand
        cases o' with
        | write => cases hends
        | read other taker taken =>
          cases result with
          | ok n => exact hadds _ rfl
          | error fault => exact trivial
      · cases herrand
    | write id writer result =>
      rw [Mail.errandFor?_of_errand (rfl : Mail.errand? _ = some (id, .write writer result))]
        at herrand
      split at herrand
      · cases herrand
        exact trivial
      · cases herrand

end Lends

/-- A scene whose course is conveyed. -/
structure Truthful (σ : Scene) (limit : Nat) (s : Course) : Prop where
  faithful : σ.Faithful limit s
  conveyed : Conveyed limit σ.handled s
  lends : σ.Lends s

theorem truthful_start (settings : Settings) (application : Application) (address : String) :
    (start settings application address).Truthful settings.payloadLimit
      (.start settings.payloadLimit) where
  faithful := faithful_start settings application address
  conveyed := .start
  lends := ⟨nofun, nofun⟩

theorem Faithful.still (h : σ.Faithful limit s) {σ' : Scene} (hg : σ.Goes σ')
    (hsame : σ'.handled = σ.handled) : σ'.Faithful limit s := by
  rcases h.goes hg with ⟨-, h'⟩ | ⟨mail, hmore, -⟩
  · exact h'
  · rw [hsame] at hmore
    simp at hmore

/-- A move leaves the course as it is, or it takes it on by a piece of mail that conveys. -/
theorem Truthful.goes (h : σ.Truthful limit s) (move : Move) :
    (σ.move move).handled = σ.handled ∧ (σ.move move).Truthful limit s ∨
      ∃ mail, (σ.move move).handled = σ.handled ++ [mail] ∧ s.Admits mail ∧
        (σ.move move).Truthful limit (s.after mail) := by
  obtain ⟨hfaithful, hconveyed, hlends⟩ := h
  have hfollows := hfaithful.follows
  have hg := hfollows.goes move
  generalize σ.move move = σ' at hg
  have hstill (hsame : σ'.handled = σ.handled) (hlends' : σ'.Lends s) : σ'.Truthful limit s :=
    ⟨hfaithful.still hg hsame, hsame ▸ hconveyed, hlends'⟩
  cases hg with
  | rests => exact .inl ⟨rfl, hfaithful, hconveyed, hlends⟩
  | quiet hq => exact .inl ⟨rfl, hstill rfl (hlends.quiet hq)⟩
  | retires => exact .inl ⟨rfl, hstill rfl hlends.retires⟩
  | takes hcore => exact .inl ⟨rfl, hstill rfl (hlends.takes hcore)⟩
  | advances _ ha => exact .inl ⟨rfl, hstill rfl (hlends.advances hfollows ha)⟩
  | @handles mail rest hrunning ht =>
    have hadmits := hfollows.admits ht
    refine .inr ⟨mail, rfl, hadmits, ?_, hconveyed.mail hadmits (hlends.conveys hfollows ht),
      hlends.handles hfollows ht⟩
    rcases hfaithful.goes (.handles hrunning ht) with ⟨hsame, -⟩ | ⟨mail', hmore, h'⟩
    · have hsame : σ.handled ++ [mail] = σ.handled := hsame
      simp at hsame
    · have hmore : σ.handled ++ [mail] = σ.handled ++ [mail'] := hmore
      obtain rfl := List.singleton_inj.mp (List.append_cancel_left hmore)
      exact h'

/-- What holds now and is kept by all mail that may come holds however long the scene runs. -/
theorem Truthful.keeps (h : σ.Truthful limit s) {P : List Mail → Course → Prop}
    (hnow : P σ.handled s)
    (hstep : ∀ mails s mail, Reached limit mails s → s.Admits mail → P mails s →
      P (mails ++ [mail]) (s.after mail)) (moves : List Move) :
    ∃ s', (σ.run moves).Truthful limit s' ∧ P (σ.run moves).handled s' := by
  induction moves generalizing σ s with
  | nil => exact ⟨s, h, hnow⟩
  | cons move moves ih =>
    rcases h.goes move with ⟨hsame, h'⟩ | ⟨mail, hmore, hadmits, h'⟩
    · refine ih h' ?_
      rw [hsame]
      exact hnow
    · refine ih h' ?_
      rw [hmore]
      exact hstep _ _ _ h.faithful.follows.reached hadmits hnow

/-- In whatever order the tasks of a host take turns, its engine has gone through a conveyed
course. -/
theorem Truthful.run (h : σ.Truthful limit s) (moves : List Move) :
    ∃ s', (σ.run moves).Truthful limit s' := by
  obtain ⟨s', h', -⟩ := h.keeps (P := fun _ _ => True) trivial (fun _ _ _ _ _ _ => trivial) moves
  exact ⟨s', h'⟩

end Scene

end WebSocket
