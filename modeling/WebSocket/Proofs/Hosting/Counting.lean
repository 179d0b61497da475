import WebSocket.Proofs.Hosting.Asides
import WebSocket.Proofs.Hosting.Panics

/-!
# Counting failures

A host counts the errors that its engine does, and no others of clients that break a rule and of
streams that fail (`Host.errorCount_handleAll`).  So the two counters come to the failures of all
connections, each of which fails once at most, and no counter is ahead of what the application has
been told (`Reached.failures_counted`).
-/

namespace WebSocket

/-- A host counts what its engine does. -/
theorem Host.errorCount_handleAll (host : Host) (mails : List Mail) {kind : ErrorKind}
    (hkind : kind ≠ .panic) :
    (host.handleAll mails).errorCount kind =
      host.errorCount kind + ((counted (host.engine.run mails).2).count kind : Nat) := by
  rw [errorCount, (host.handleAll_records mails).2]
  exact host.records.value_foldl_after host.application _ hkind

theorem disconnects_eq (effects : List Effect) :
    disconnects effects = ((told effects).filter (·.2 = .disconnect)).map (·.1) := by
  rw [disconnects, told, List.filter_filterMap, List.map_filterMap]
  refine List.filterMap_congr fun effect _ => ?_
  cases effect with
  | deliver id event => cases event <;> rfl
  | _ => rfl

theorem Accounted.length_counted {effects : List Effect} (h : Accounted effects) :
    (counted effects).length =
      (counted effects).count .protocol + (counted effects).count .io := by
  induction h with
  | nil => rfl
  | @other effect effects heffect _ ih =>
    have hone : Faultless [effect] := by simp [heffect]
    rw [← List.singleton_append, counted_append, hone.counted_eq, List.nil_append, ih]
  | @failure notice id kind effects hnotice _ ih =>
    show (kind :: counted effects).length =
      (kind :: counted effects).count .protocol + (kind :: counted effects).count .io
    rw [List.length_cons, ih]
    rcases notice.failure?_kind hnotice with rfl | rfl <;> simp <;> omega

/-- What the failures of connections come to by some point of a course. -/
structure Course.FailsOnce (s : Course) : Prop where
  /-- The errors that are counted are the failures that are reported, each of one connection. -/
  attributed : counted s.effects = (failures s.effects).map (·.2)
  /-- Each connection accounts for one of them at most. -/
  once : ((failures s.effects).map (·.1)).Nodup
  /-- The end of each session is told once at most. -/
  ends : (disconnects s.effects).Nodup
  /-- A failure is counted in the dispatch that tells of the end of the session. -/
  together : ∀ mail, s.Admits mail →
    let effects := (s.engine.dispatch mail).2
    counted effects = (failures effects).map (·.2) ∧
      ∀ failure ∈ failures effects, failure.1 ∈ disconnects effects
  /-- A read or a write that ends when its connection has closed or is gone is no failure. -/
  late : ∀ mail id errand, s.Admits mail → mail.errand? = some (id, errand) → errand.isEnd →
    (∀ c, s.engine.table.find? id = some c → c.closed = true) →
      counted (s.engine.dispatch mail).2 = [] ∧ failures (s.engine.dispatch mail).2 = []
  /-- No more was counted than ends of sessions were told. -/
  bounded : (counted s.effects).length ≤ (disconnects s.effects).length
  /-- Nor is it whenever the application is told something. -/
  told : ∀ before id event after, s.effects = before ++ .deliver id event :: after →
    (counted before).length ≤ (disconnects (before ++ [.deliver id event])).length

namespace Reached

variable {limit : Nat} {mails : List Mail} {s : Course}

theorem failsOnce (h : Reached limit mails s) : s.FailsOnce where
  attributed := h.accounted.counted_eq
  once := h.failures_nodup
  ends := h.disconnects_nodup
  together mail _ := by
    have haccounted := s.engine.accounted_dispatch mail
    exact ⟨haccounted.counted_eq, fun failure hmem =>
      haccounted.failures_sublist.subset (List.mem_map_of_mem hmem)⟩
  late mail id errand _ hmail _ hclosed := by
    have hfaultless := Engine.faultless_late hmail hclosed
    exact ⟨hfaultless.counted_eq, hfaultless.failures_eq⟩
  bounded := by
    rw [h.accounted.counted_eq, List.length_map, ← List.length_map (·.1)]
    exact h.accounted.failures_sublist.length_le
  told before id event after heffects := Accounted.counted_before (heffects ▸ h.accounted)

/-- For every order of mail and every application: each connection accounts for one error at most
that is counted of a client that breaks a rule or of a stream that fails, and there are at most as
many of them as the application has been told of ends of sessions. -/
theorem failures_counted (settings : Settings) (application : Application) (address : String)
    (h : Reached settings.payloadLimit mails s) :
    let host := (Host.new settings application address).handleAll mails
    s.FailsOnce ∧
      (∀ kind, kind = .protocol ∨ kind = .io →
        host.errorCount kind = ((counted s.effects).count kind : Nat)) ∧
      host.errorCount .protocol + host.errorCount .io ≤
        (host.records.history.countP (·.2 = .disconnect) : Nat) := by
  intro host
  have hcounted : ∀ kind, kind = .protocol ∨ kind = .io →
      host.errorCount kind = ((counted s.effects).count kind : Nat) := by
    intro kind hkind
    have hpanic : kind ≠ .panic := by rintro rfl; simp at hkind
    have hnew : (Host.new settings application address).errorCount kind = 0 := rfl
    have hall := (Host.new settings application address).errorCount_handleAll mails hpanic
    rw [hnew, Int.zero_add] at hall
    rw [hall, show (Host.new settings application address).engine = .new settings.payloadLimit from
      rfl, h.run_eq]
  have hhistory : host.records.history.countP (·.2 = .disconnect) =
      (disconnects s.effects).length := by
    have hall : host.records.history = (WebSocket.told s.effects).reverse ++ [] := by
      rw [(Host.new settings application address).handleAll_history mails,
        show (Host.new settings application address).engine = .new settings.payloadLimit from rfl,
        h.run_eq]
      rfl
    rw [hall, List.append_nil, List.countP_reverse, disconnects_eq, List.length_map,
      List.countP_eq_length_filter]
  refine ⟨h.failsOnce, hcounted, ?_⟩
  have hbounded := h.failsOnce.bounded
  rw [hcounted _ (.inl rfl), hcounted _ (.inr rfl), hhistory]
  rw [h.accounted.length_counted] at hbounded
  omega

/-- One client breaks a rule while a write for it is blocked, which then fails; the stream of another
one fails.  Two errors are counted, one of each client. -/
theorem failures_counted_late :
    let mails : List Mail := [.bring 0, .bring 1, .request (.send ⟨1⟩ (.text "hi") none),
      .completion (.read ⟨1⟩ 0 (.ofOctets [0x83, 0x80, 0, 0, 0, 0]) (.ok 6)),
      .completion (.write ⟨1⟩ 0 (.error .aborted)),
      .completion (.read ⟨2⟩ 1 .empty (.error .aborted))]
    ∃ s, Reached Settings.standard.payloadLimit mails s ∧ s.FailsOnce ∧
      let host := (Host.new Settings.standard (Rule.application Rule.echo) "").handleAll mails
      failures s.effects = [(⟨1⟩, .protocol), (⟨2⟩, .io)] ∧
        host.errorCount .protocol = 1 ∧ host.errorCount .io = 1 := by
  intro mails
  have hreached : Reached Settings.standard.payloadLimit mails _ := reached_foldl (by decide +kernel)
  obtain ⟨hfails, hcounted, -⟩ :=
    failures_counted Settings.standard (Rule.application Rule.echo) "" hreached
  have hfailures : failures (mails.foldl Course.after
      (.start Settings.standard.payloadLimit)).effects = [(⟨1⟩, .protocol), (⟨2⟩, .io)] := by
    decide +kernel
  rw [hfails.attributed, hfailures] at hcounted
  exact ⟨_, hreached, hfails, hfailures, hcounted _ (.inl rfl), hcounted _ (.inr rfl)⟩

end Reached

end WebSocket
