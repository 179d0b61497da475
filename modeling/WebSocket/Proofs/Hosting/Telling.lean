import WebSocket.Proofs.Hosting.Performance
import WebSocket.Proofs.Session.Grammar

/-!
# Sessions as the application is told of them

Whatever mail a host handles, and whatever its application does about what it is told, the host's
engine and what the application is told are those of the engine alone (`handleAll_engine`,
`handleAll_history`).  So of every connection the application is told a session from its beginning,
and its end when the connection has closed (`session_told`).
-/

namespace WebSocket

namespace Host

def handleAll (host : Host) (mails : List Mail) : Host := mails.foldl handle host

/-- What the application was told of a connection, in order. -/
def toldOf (host : Host) (id : ConnectionId) : List Event :=
  (host.records.history.reverse.filter (·.1 = id)).map (·.2)

variable (host : Host)

theorem performs_handle (mail : Mail) :
    Performs { host with engine := (host.engine.dispatch mail).1 } (host.handle mail)
      (host.engine.dispatch mail).2 fun id =>
        host.application.sends id host.records.history (told (host.engine.dispatch mail).2) :=
  performs_all _ _

theorem handleAll_engine (mails : List Mail) :
    (host.handleAll mails).engine = (host.engine.run mails).1 := by
  induction mails generalizing host with
  | nil => rfl
  | cons mail mails ih =>
    have hengine : (host.handle mail).engine = (host.engine.dispatch mail).1 :=
      (host.performs_handle mail).engine
    show ((host.handle mail).handleAll mails).engine = _
    rw [ih, hengine]
    rfl

/-- What is recorded, the engine and what the application does about its events settle. -/
theorem handleAll_records (mails : List Mail) :
    (host.handleAll mails).application = host.application ∧
      (host.handleAll mails).records =
        (host.engine.run mails).2.foldl (Records.after host.application) host.records := by
  induction mails generalizing host with
  | nil => exact ⟨rfl, rfl⟩
  | cons mail mails ih =>
    have hperforms := host.performs_handle mail
    have hengine : (host.handle mail).engine = (host.engine.dispatch mail).1 := hperforms.engine
    have happlication : (host.handle mail).application = host.application := hperforms.application
    have hrecords : (host.handle mail).records =
        (host.engine.dispatch mail).2.foldl (Records.after host.application) host.records :=
      hperforms.records
    obtain ⟨hsame, hlater⟩ := ih (host.handle mail)
    refine ⟨hsame.trans happlication, ?_⟩
    show ((host.handle mail).handleAll mails).records = _
    rw [hlater, hengine, happlication, hrecords, ← List.foldl_append]
    rfl

/-- The application is told what the engine has to tell, whatever it does. -/
theorem handleAll_history (mails : List Mail) :
    (host.handleAll mails).records.history =
      (told (host.engine.run mails).2).reverse ++ host.records.history := by
  rw [(host.handleAll_records mails).2, history_foldl_after]

/-- The operations that the engine begins are begun. -/
theorem jobs_handleAll (mails : List Mail) :
    (host.handleAll mails).jobs.map Job.ticket =
      host.jobs.map Job.ticket ++ (begun (host.engine.run mails).2).map Operation.ticket := by
  induction mails generalizing host with
  | nil => exact (List.append_nil _).symm
  | cons mail mails ih =>
    have hhandle := host.performs_handle mail
    have hengine : (host.handle mail).engine = (host.engine.dispatch mail).1 := hhandle.engine
    have htickets : (host.handle mail).jobs.map Job.ticket = host.jobs.map Job.ticket ++
        (begun (host.engine.dispatch mail).2).map Operation.ticket := hhandle.tickets
    show ((host.handle mail).handleAll mails).jobs.map Job.ticket = _
    rw [ih, hengine, htickets, List.append_assoc, ← List.map_append, ← begun_append]
    rfl

/-- What an application is told of one connection is what the engine delivers on it. -/
theorem toldOf_handleAll (settings : Settings) (application : Application) (address : String)
    (mails : List Mail) (id : ConnectionId) :
    ((new settings application address).handleAll mails).toldOf id =
      delivered (effectsOn id ((Engine.new settings.payloadLimit).run mails).2) := by
  rw [toldOf, handleAll_history, List.reverse_append, List.reverse_reverse, ← filter_told]
  rfl

/-- For every order of mail and every application: of each connection the application is told a
session from its beginning, of a number that was never given out it is told nothing, and it has been
told of the end of a session exactly when the connection has closed or is gone. -/
theorem session_told (settings : Settings) (application : Application) (address : String)
    {mails : List Mail} {s : Course} (h : Reached settings.payloadLimit mails s)
    (id : ConnectionId) :
    let host := (new settings application address).handleAll mails
    IsSession (host.toldOf id) ∧
      (streamOf? mails id = none → host.toldOf id = []) ∧
      ∀ transport, streamOf? mails id = some transport →
        .newConnection ∈ host.toldOf id ∧
          (.disconnect ∈ host.toldOf id ↔
            ∀ c, host.engine.table.find? id = some c → c.closed = true) := by
  intro host
  have hrun := h.run_eq
  have htold : host.toldOf id = delivered (effectsOn id s.effects) := by
    rw [toldOf_handleAll, hrun]
  have hengine : host.engine = s.engine := by
    rw [handleAll_engine]
    exact congrArg Prod.fst hrun
  obtain ⟨l, hl, hs⟩ := h.shows id
  rw [htold, hengine, hs.found]
  cases hstream : streamOf? mails id with
  | none =>
    rw [hstream] at hl
    have hnone : delivered (effectsOn id s.effects) = [] := by
      rw [hs.effects, hl]
      rfl
    rw [hnone]
    exact ⟨⟨[], _, rfl⟩, fun _ => rfl, nofun⟩
  | some transport =>
    rw [hstream] at hl
    obtain ⟨peer, leftover, hlived⟩ := hl
    rw [hs.delivered_eq hlived.confined]
    have htells := hlived.tells
    refine ⟨htells.isSession, nofun, fun _ _ => ⟨?_, htells.disconnect_mem_iff⟩⟩
    obtain ⟨messages, hmessages⟩ := htells
    rw [hmessages]
    exact List.mem_cons_self

/-- A client comes and is dropped, and the application panics about all it is told. -/
theorem session_told_panicking :
    let application : Application := fun _ _ _ => ⟨[.request .closeAll], some (.text "no")⟩
    let mails : List Mail := [.bring 0, .request (.drop ⟨1⟩)]
    let host := (new Settings.standard application "").handleAll mails
    (∃ s, Reached Settings.standard.payloadLimit mails s) ∧ IsSession (host.toldOf ⟨1⟩) ∧
      .newConnection ∈ host.toldOf ⟨1⟩ ∧ .disconnect ∈ host.toldOf ⟨1⟩ := by
  intro application mails host
  have hreached := reached_bring_request Settings.standard.payloadLimit 0 (.drop ⟨1⟩)
  obtain ⟨hsession, -, hregistered⟩ := session_told Settings.standard application "" hreached ⟨1⟩
  obtain ⟨hnew, hend⟩ := hregistered 0 (by decide)
  have hclosed : (((Engine.new Settings.standard.payloadLimit).run
      mails).1.table.find? ⟨1⟩).all (·.closed) = true := by
    decide +kernel
  refine ⟨⟨_, hreached⟩, hsession, hnew, hend.mpr ?_⟩
  intro c hc
  rw [handleAll_engine] at hc
  have hc' : (((Engine.new Settings.standard.payloadLimit).run mails).1.table.find? ⟨1⟩) = some c := hc
  rw [hc'] at hclosed
  exact hclosed

end Host

end WebSocket
