import WebSocket.Proofs.Hosting.Telling
import WebSocket.Proofs.Session.Samples

/-!
# Panics of applications

A callback that panics has posted all that it posts before, and its panic is caught where the engine
tells the application of the event.  So the host without its panics, and without what was counted
and reported of them, is what it would be if no callback panicked (`Host.calm_handleAll`):

    (host.handleAll mails).calm = host.calm.handleAll mails

The engine reports no panics on its own, so those that are reported are those of the callbacks, one
each, in their order (`Host.reports_handleAll`).
-/

namespace WebSocket

/-! ## Panics in effects -/

def Notice.isPanic : Notice → Bool
  | panicked .. => true
  | _ => false

def Effect.isPanic : Effect → Bool
  | count sample => sample == .error .panic
  | report notice => notice.isPanic
  | _ => false

/-- Effects that neither count nor report a panic. -/
def Calm (effects : List Effect) : Prop := ∀ effect ∈ effects, effect.isPanic = false

namespace Calm

variable {effects : List Effect} {effect : Effect}

theorem cons_iff : Calm (effect :: effects) ↔ effect.isPanic = false ∧ Calm effects :=
  List.forall_mem_cons

end Calm

theorem Own.calm {effects : List Effect} (h : Own effects) : Calm effects := by
  intro effect hmem
  have hown := h effect hmem
  cases effect with
  | count sample =>
    cases sample with
    | error kind => cases kind <;> first | rfl | cases hown
    | _ => rfl
  | report notice => cases notice <;> first | rfl | cases hown
  | _ => rfl

/-- The engine neither counts nor reports a panic on its own. -/
theorem Engine.calm_dispatch (e : Engine) (mail : Mail) : Calm (e.dispatch mail).2 :=
  (e.own_dispatch mail).calm

/-! ## Metrics without one of them -/

namespace Metrics

def without (name : String) (metrics : Metrics) : Metrics :=
  metrics.filter fun entry => !decide (entry.1 = name)

theorem without_add_self (name : String) (amount : Int) (metrics : Metrics) :
    (add name amount metrics).without name = metrics.without name := by
  induction metrics with
  | nil => simp [add, without]
  | cons entry metrics ih =>
    obtain ⟨n, value⟩ := entry
    unfold add
    split
    · rename_i h
      simp [without, h]
    · rename_i h
      simpa [without, List.filter_cons, h] using ih

theorem without_add_other {name other : String} (h : other ≠ name) (amount : Int)
    (metrics : Metrics) :
    (add other amount metrics).without name = add other amount (metrics.without name) := by
  induction metrics with
  | nil => simp [add, without, h]
  | cons entry metrics ih =>
    obtain ⟨n, value⟩ := entry
    simp only [without] at ih ⊢
    by_cases hn : n = other
    · simp [add, hn, h]
    · by_cases hname : n = name
      · simp [add, hname, Ne.symm h, ih]
      · simp [add, hn, hname, ih]

def panics : String := (Sample.error .panic).metric

theorem metric_ne_panics {sample : Sample} (h : sample ≠ .error .panic) :
    sample.metric ≠ panics :=
  Sample.metric_ne_error h

end Metrics

/-! ## Hosts without panics -/

/-- The application that posts the same but does not panic. -/
def Application.calm (application : Application) : Application := fun history id event =>
  { application history id event with panic := none }

namespace Records

/-- The records without the reports and the count of panics. -/
def calm (r : Records) : Records :=
  { r with
    notices := r.notices.filter (! ·.isPanic)
    metrics := r.metrics.without Metrics.panics }

theorem calm_count (r : Records) {sample : Sample} (h : sample ≠ .error .panic) :
    (r.count sample).calm = r.calm.count sample := by
  have hmetrics := Metrics.without_add_other (Metrics.metric_ne_panics h) sample.amount r.metrics
  simp only [calm, count, Metrics.record]
  rw [hmetrics]

theorem calm_report (r : Records) {notice : Notice} (h : notice.isPanic = false) :
    (r.report notice).calm = r.calm.report notice := by
  simp only [calm, report]
  rw [List.filter_cons_of_pos (by simp [h])]

/-- Counting and reporting a panic is all that is left out. -/
theorem calm_panicked (r : Records) (id : ConnectionId) (event : Event) (payload : PanicPayload) :
    ((r.count (.error .panic)).report (.panicked id event payload)).calm = r.calm := by
  have hmetrics := Metrics.without_add_self Metrics.panics 1 r.metrics
  simp only [calm, report, count, Metrics.record]
  simp only [Metrics.panics] at hmetrics ⊢
  rw [show Sample.amount (.error .panic) = 1 from rfl, hmetrics]
  rfl

theorem calm_after (application : Application) (r : Records) {effect : Effect}
    (h : effect.isPanic = false) :
    (r.after application effect).calm = r.calm.after application.calm effect := by
  cases effect with
  | deliver id event =>
    simp only [after]
    split
    · rfl
    · rw [calm_panicked]
      rfl
  | count sample => exact r.calm_count (by simpa [Effect.isPanic] using h)
  | report notice => exact r.calm_report h
  | queued | start | cancel | release => rfl

theorem calm_foldl_after (application : Application) (r : Records) {effects : List Effect}
    (h : Calm effects) :
    (effects.foldl (after application) r).calm =
      effects.foldl (after application.calm) r.calm := by
  induction effects generalizing r with
  | nil => rfl
  | cons effect effects ih =>
    obtain ⟨heffect, heffects⟩ := Calm.cons_iff.mp h
    rw [List.foldl_cons, List.foldl_cons, ih _ heffects, calm_after application r heffect]

end Records

namespace Host

/-- The host whose application does not panic. -/
def calm (host : Host) : Host :=
  { host with
    application := host.application.calm
    records := host.records.calm }

/-- A callback that panics has done all that it does before. -/
theorem calm_handle (host : Host) (mail : Mail) :
    (host.handle mail).calm = host.calm.handle mail := by
  let next : Host := { host with engine := (host.engine.dispatch mail).1 }
  have hposts : host.calm.handle mail = (host.handle mail).recast host.application.calm
      ((host.engine.dispatch mail).2.foldl (Records.after host.application.calm)
        host.records.calm) :=
    next.recast_performAll (host.engine.dispatch mail).2 (fun _ _ _ => rfl) rfl
  have hperforms := host.performs_handle mail
  have happlication : (host.handle mail).application = host.application := hperforms.application
  have hrecords : (host.handle mail).records =
      (host.engine.dispatch mail).2.foldl (Records.after host.application) host.records :=
    hperforms.records
  rw [hposts, ← Records.calm_foldl_after _ _ (host.engine.calm_dispatch mail), ← hrecords,
    ← happlication]
  rfl

/-- Panics change nothing but what is counted and reported of them. -/
theorem calm_handleAll (host : Host) (mails : List Mail) :
    (host.handleAll mails).calm = host.calm.handleAll mails := by
  induction mails generalizing host with
  | nil => rfl
  | cons mail mails ih =>
    show ((host.handle mail).handleAll mails).calm = (host.calm.handle mail).handleAll mails
    rw [ih, calm_handle]

/-! ## Reports of panics -/

end Host

/-- The panics of an application that was told so much, the latest first. -/
def Application.panics (application : Application) : List (ConnectionId × Event) → List Notice
  | [] => []
  | (id, event) :: earlier =>
    match (application earlier id event).panic with
    | none => application.panics earlier
    | some payload => .panicked id event payload :: application.panics earlier

namespace Host

/-- Each panic of the application was reported once and counted once, and nothing else was reported
or counted as a panic. -/
structure Reports (host : Host) : Prop where
  notices : host.records.notices.filter (·.isPanic) =
    host.application.panics host.records.history
  count : host.records.metrics.value Metrics.panics =
    (host.application.panics host.records.history).length

end Host

/-- An effect of the engine and the panic of the application about it, if there is one, leave each
panic reported and counted once. -/
theorem Records.reports_after {application : Application} {r : Records} {effect : Effect}
    (hcalm : effect.isPanic = false)
    (hnotices : r.notices.filter (·.isPanic) = application.panics r.history)
    (hcount : r.metrics.value Metrics.panics = (application.panics r.history).length) :
    (r.after application effect).notices.filter (·.isPanic) =
        application.panics (r.after application effect).history ∧
      (r.after application effect).metrics.value Metrics.panics =
        (application.panics (r.after application effect).history).length := by
  cases effect with
  | deliver id event =>
    simp only [after]
    cases hpanic : (application r.history id event).panic with
    | none =>
      simp only [Application.panics, hpanic]
      exact ⟨hnotices, hcount⟩
    | some payload =>
      simp only [report, count, Application.panics, hpanic]
      refine ⟨by rw [List.filter_cons_of_pos rfl, hnotices], ?_⟩
      refine (Metrics.value_add_self Metrics.panics 1 r.metrics).trans ?_
      rw [hcount, List.length_cons]
      rfl
  | count sample =>
    have hne : sample ≠ .error .panic := by simpa [Effect.isPanic] using hcalm
    have hother := Metrics.value_add_other sample.amount r.metrics (Metrics.metric_ne_panics hne).symm
    exact ⟨hnotices, hother.trans hcount⟩
  | report notice =>
    have hnone : notice.isPanic = false := hcalm
    refine ⟨?_, hcount⟩
    show List.filter _ (notice :: r.notices) = _
    rw [List.filter_cons_of_neg (by simp [hnone])]
    exact hnotices
  | queued | start | cancel | release => exact ⟨hnotices, hcount⟩

theorem Records.reports_foldl_after {application : Application} {r : Records}
    {effects : List Effect} (hcalm : Calm effects)
    (hnotices : r.notices.filter (·.isPanic) = application.panics r.history)
    (hcount : r.metrics.value Metrics.panics = (application.panics r.history).length) :
    let last := effects.foldl (after application) r
    last.notices.filter (·.isPanic) = application.panics last.history ∧
      last.metrics.value Metrics.panics = (application.panics last.history).length := by
  induction effects generalizing r with
  | nil => exact ⟨hnotices, hcount⟩
  | cons effect effects ih =>
    obtain ⟨heffect, heffects⟩ := Calm.cons_iff.mp hcalm
    obtain ⟨hnotices', hcount'⟩ := reports_after heffect hnotices hcount
    exact ih heffects hnotices' hcount'

theorem Engine.calm_run (e : Engine) (mails : List Mail) : Calm (e.run mails).2 := by
  induction mails generalizing e with
  | nil => exact nofun
  | cons mail mails ih =>
    exact List.forall_mem_append.mpr ⟨e.calm_dispatch mail, ih (e.dispatch mail).1⟩

namespace Host

/-- Whatever mail a host handles, each panic of its application is reported and counted once. -/
theorem reports_handleAll {host : Host} (h : host.Reports) (mails : List Mail) :
    (host.handleAll mails).Reports := by
  obtain ⟨happlication, hrecords⟩ := host.handleAll_records mails
  obtain ⟨hnotices, hcount⟩ :=
    Records.reports_foldl_after (host.engine.calm_run mails) h.notices h.count
  rw [← hrecords, ← happlication] at hnotices hcount
  exact ⟨hnotices, hcount⟩

/-! ## Two applications that post the same -/

/-- Two hosts that have handled the same mail differ in the panics of their applications at most. -/
structure DifferInPanics (limit : Nat) (mails : List Mail) (host host' : Host) : Prop where
  /-- The table, whether the engine is stopping, the operations begun, the requests posted and what
  the applications were told are the same, and everything else that is not looked at below. -/
  same : host' = { host with
    application := host'.application
    records := { host.records with
      notices := host'.records.notices
      metrics := host'.records.metrics } }
  /-- Apart from panics the same was reported, in the same order. -/
  notices : host'.records.notices.filter (! ·.isPanic) = host.records.notices.filter (! ·.isPanic)
  /-- Apart from panics the same was counted. -/
  metrics : host'.records.metrics.without Metrics.panics =
    host.records.metrics.without Metrics.panics
  /-- Each panic was reported and counted once. -/
  reports : host.Reports ∧ host'.Reports
  /-- The engine has handled all of the mail. -/
  engine : host'.engine = ((Engine.new limit).run mails).1
  /-- The application was told all that the engine had to tell. -/
  history : host'.records.history.reverse = told ((Engine.new limit).run mails).2
  /-- All operations of the engine have begun. -/
  begun : host'.jobs.map Job.ticket = (begun ((Engine.new limit).run mails).2).map Operation.ticket

theorem eq_of_calm {host host' : Host} (h : host'.calm = host.calm) :
    host' = { host with
        application := host'.application
        records := { host.records with
          notices := host'.records.notices
          metrics := host'.records.metrics } } ∧
      host'.records.calm = host.records.calm := by
  have hhost : host'.calm.recast host'.application host'.records =
      host.calm.recast host'.application host'.records := by rw [h]
  have hcalm : host'.records.calm = host.records.calm := congrArg Host.records h
  have hrecords : host'.records = { host.records with
      notices := host'.records.notices, metrics := host'.records.metrics } :=
    congrArg (fun r : Records =>
      { r with notices := host'.records.notices, metrics := host'.records.metrics }) hcalm
  exact ⟨hhost.trans (congrArg (host.recast host'.application) hrecords), hcalm⟩

/-- For every order of mail: an application that panics at the end of some of its callbacks, but
posts the same as another one, makes no difference beyond what is reported and counted of its
panics. -/
theorem panics_reported (settings : Settings) (application application' : Application)
    (address : String)
    (hposts : ∀ history id event,
      (application' history id event).posts = (application history id event).posts)
    (mails : List Mail) :
    DifferInPanics settings.payloadLimit mails
      ((new settings application address).handleAll mails)
      ((new settings application' address).handleAll mails) := by
  have hcalm : application'.calm = application.calm := by
    funext history id event
    simp only [Application.calm, hposts]
  have hnew : (new settings application' address).calm = (new settings application address).calm := by
    simp only [calm, new, hcalm]
  have hsame : ((new settings application' address).handleAll mails).calm =
      ((new settings application address).handleAll mails).calm := by
    rw [calm_handleAll, calm_handleAll, hnew]
  have hreports : ∀ application,
      ((new settings application address).handleAll mails).Reports := by
    intro application
    have hempty : (new settings application address).Reports := ⟨rfl, rfl⟩
    exact reports_handleAll hempty mails
  obtain ⟨hrest, hrecords⟩ := eq_of_calm hsame
  have hnotices := congrArg Records.notices hrecords
  have hmetrics := congrArg Records.metrics hrecords
  exact {
    same := hrest
    notices := hnotices
    metrics := hmetrics
    reports := ⟨hreports application, hreports application'⟩
    engine := handleAll_engine _ mails
    history := by
      rw [handleAll_history, List.reverse_append, List.reverse_reverse]
      rfl
    begun := jobs_handleAll _ mails }

/-- A client says something and is dropped, and the application panics about all it is told of it.
It echoes the message nevertheless. -/
theorem panics_reported_thrice :
    let echo := Rule.application Rule.echo
    let panics : Application := fun history id event =>
      { echo history id event with panic := some (.text "no") }
    let frame : Bytes := [0x82, 0x83, 0, 0, 0, 0, 1, 2, 3]
    let mails : List Mail := [.bring 0,
      .completion (.read ⟨1⟩ 0 (.ofOctets frame) (.ok frame.length)), .request (.drop ⟨1⟩)]
    let host := (new Settings.standard echo "").handleAll mails
    let host' := (new Settings.standard panics "").handleAll mails
    (∀ history id event, (panics history id event).posts = (echo history id event).posts) ∧
      DifferInPanics Settings.standard.payloadLimit mails host host' ∧
      host'.records.metrics.value Metrics.panics = 3 ∧ host'.requests.toList.length = 1 := by
  intro echo panics frame mails host host'
  refine ⟨fun _ _ _ => rfl,
    panics_reported Settings.standard echo panics "" (fun _ _ _ => rfl) mails, ?_⟩
  decide +kernel

end Host

end WebSocket
