import WebSocket.Hosting.Turn
import WebSocket.Proofs.Hosting.Core
import WebSocket.Proofs.Opening.Attempts
import WebSocket.Proofs.Session.Samples

/-!
# Letting a client in

An attempt has its turns on a host, with anything between them that leaves it alone (`Runs`).  If
the host runs, lets clients in and does not lose patience, the client is let in exactly if it asked
for a session and the whole reply went out; the engine is told once then, and gets what came after
the request.  Otherwise the engine is told nothing, one error is counted, and the client has seen
the refusal that is due, as far as the stream took it (`runs_settled`).  The turns of an attempt that
does not have to wait are bounded, so it is not let wait forever.
-/

namespace WebSocket

open Opening

def Host.errorCount (host : Host) (kind : ErrorKind) : Int :=
  host.records.metrics.value (Sample.error kind).metric

def Host.attempt? (host : Host) (transport : Transport) : Option Attempt :=
  host.attempts.find? (·.transport = transport)

def Opening.Progress.isWaiting : Progress → Bool
  | .waiting => true
  | _ => false

/-- A host and the stream of an attempt, with what was done on the stream and what came of the turns
of the attempt. -/
structure Admission (σ : Type) where
  host : Host
  stream : σ
  log : Log
  /-- What was reported to the engine. -/
  posted : List Completion
  /-- How many errors were counted. -/
  errors : ErrorKind → Int
  /-- In how many turns the attempt did not have to wait. -/
  turns : Nat

namespace Admission

variable {σ : Type}

def turn (medium : Medium σ) (transport : Transport) (a : Admission σ) : Admission σ :=
  match a.host.attempt? transport with
  | none => a
  | some attempt =>
    let ((stream, log), progress) :=
      attempt.phase.step medium.logged a.host.settings.requestLimit (a.stream, a.log)
    let host := (a.host.proceed attempt progress).1
    { host := host
      stream := stream
      log := log
      posted := a.posted ++ host.completions.drop a.host.completions.length
      errors := fun kind => a.errors kind + (host.errorCount kind - a.host.errorCount kind)
      turns := if progress.isWaiting then a.turns else a.turns + 1 }

end Admission

/-- A host that runs, lets clients in, and is not about to lose patience with one. -/
structure Host.Admits (host : Host) (transport : Transport) : Prop where
  running : host.running = true
  shutdown : host.shutdown = false
  early : ∀ attempt deadline, host.attempt? transport = some attempt →
    attempt.deadline = some deadline → host.now < deadline
  patient : ∀ limit, host.settings.openingLimit = some limit → 0 < limit.millisUp

/-- Something happens to a host that leaves the attempt on a stream alone. -/
structure Host.Spares (host host' : Host) (transport : Transport) : Prop where
  attempt : host'.attempt? transport = host.attempt? transport
  settings : host'.settings = host.settings

/-- An attempt has turns, and between them other things happen to the host and to the stream. -/
inductive Runs {σ : Type} (medium : Medium σ) (transport : Transport) :
    Admission σ → Admission σ → Prop
  | refl (a : Admission σ) : Runs medium transport a a
  | turn {a b : Admission σ} : Runs medium transport a b → b.host.Admits transport →
      Runs medium transport a (b.turn medium transport)
  | meanwhile {a b : Admission σ} (host : Host) (stream : σ) : Runs medium transport a b →
      b.host.Spares host transport →
      Runs medium transport a { b with host := host, stream := stream }

/-- The attempt has not begun. -/
structure Admission.Begins {σ : Type} (a : Admission σ) (transport : Transport)
    (peer : Option SocketAddress) (limit : Nat) : Prop where
  attempt : a.host.attempt? transport = some ⟨transport, peer, none, .start⟩
  limit : a.host.settings.requestLimit = limit
  log : a.log = .empty
  posted : a.posted = []
  errors : a.errors = fun _ => 0
  turns : a.turns = 0

/-- The whole reply to a request for a session went out. -/
def LetsIn (limit : Nat) (fault : Fault) (source : List Bytes) (log : Log) : Prop :=
  ∃ read, readRequest limit fault [] source = .ok read ∧
    (negotiate read.request.head).isAccepted = true ∧
    log.put = (negotiate read.request.head).reply ∧ log.pushed = true

/-- What is to come of an attempt: `source` is what its client sends, in any pieces, and `fault` what
comes after it; `unread` is the end of it that was not read. -/
structure Settled {σ : Type} (last : Admission σ) (transport : Transport)
    (peer : Option SocketAddress) (limit : Nat) (fault : Fault) (source : List Bytes)
    (unread : Bytes) : Prop where
  told_iff : (∃ completion ∈ last.posted, Host.broughtStream completion = some transport) ↔
    LetsIn limit fault source last.log
  /-- The engine is told once, and gets all that comes after the head. -/
  letIn : LetsIn limit fault source last.log → (∀ kind, last.errors kind = 0) ∧
    ∃ e leftover, HeadEnds source.flatten e ∧
      last.posted = [.registered transport peer leftover] ∧
      leftover.toList ++ unread = source.flatten.drop e
  keptOut : ¬ LetsIn limit fault source last.log → last.posted = [] ∧
    ∀ kind, last.errors kind = if kind = .handshake then 1 else 0
  replied : ∀ read, readRequest limit fault [] source = .ok read →
    last.log.put <+: (negotiate read.request.head).reply ∧
      ((negotiate read.request.head).isAccepted = false → last.log.broken = false →
        last.log.put = (negotiate read.request.head).reply)
  tooLong : ∀ limit', readRequest limit fault [] source = .error (.requestTooLarge limit') →
    last.log.put <+: Bytes.ofString badRequestReply ∧
      (last.log.broken = false → last.log.put = Bytes.ofString badRequestReply)
  failed : ∀ fault', readRequest limit fault [] source = .error (.stream fault') →
    last.log.put = []

/-! ## Hosts -/

namespace Host

variable {host : Host} {attempt : Attempt} {transport : Transport}

theorem transport_of_attempt? (h : host.attempt? transport = some attempt) :
    attempt.transport = transport := by
  simpa using List.find?_some h

theorem attempt?_putAttempt {old : Attempt} (h : host.attempt? attempt.transport = some old) :
    (host.putAttempt attempt).attempt? attempt.transport = some attempt := by
  unfold attempt? putAttempt at *
  rw [List.find?_map]
  have hsame : ((fun a : Attempt => decide (a.transport = attempt.transport)) ∘
      fun a => if a.transport = attempt.transport then attempt else a) =
      fun a => decide (a.transport = attempt.transport) := by
    funext a
    by_cases heq : a.transport = attempt.transport <;> simp [heq]
  rw [hsame, h, Option.map_some, if_pos (transport_of_attempt? h)]

theorem errorCount_count (host : Host) (kind other : ErrorKind) :
    (host.count (.error kind)).errorCount other =
      host.errorCount other + if other = kind then 1 else 0 := by
  unfold errorCount
  show (Metrics.add _ 1 host.records.metrics).value _ = _
  by_cases heq : other = kind
  · subst heq
    rw [Metrics.value_add_self, if_pos rfl]
  · have hne : Sample.error kind ≠ .error other := fun h => heq (Sample.error.inj h).symm
    rw [Metrics.value_add_other _ _ (Sample.metric_ne_error hne).symm, if_neg heq, Int.add_zero]

end Host

/-! ## Turns -/

namespace Admission

variable {σ : Type} {medium : Medium σ} {transport : Transport} {peer : Option SocketAddress}
  {limit : Nat} {a b : Admission σ}

/-- What a part of a turn has changed on the host. -/
theorem turn_of_attempt {attempt : Attempt} {stream : σ} {log : Log} {progress : Progress}
    (h : a.host.attempt? transport = some attempt)
    (hstep : attempt.phase.step medium.logged a.host.settings.requestLimit (a.stream, a.log) =
      ((stream, log), progress)) :
    a.turn medium transport =
      let host := (a.host.proceed attempt progress).1
      { host := host
        stream := stream
        log := log
        posted := a.posted ++ host.completions.drop a.host.completions.length
        errors := fun kind => a.errors kind + (host.errorCount kind - a.host.errorCount kind)
        turns := if progress.isWaiting then a.turns else a.turns + 1 } := by
  unfold turn
  rw [h]
  simp only [hstep]

end Admission

/-! ## What comes of it -/

variable {σ : Type} {medium : Medium σ} {transport : Transport} {peer : Option SocketAddress}
  {limit : Nat} {first last : Admission σ} {fault : Fault} {source : List Bytes} {unread : Bytes}

structure Log.IsOf (log : Log) (fault : Fault) (octets unread : Bytes) : Prop where
  octets : octets = log.got ++ unread
  /-- Whoever has found out that there is no more to read has read everything. -/
  ended : ∀ fault', log.ended = some fault' → fault' = fault ∧ unread = []

namespace Log.IsOf

variable {log : Log} {e : Nat}

theorem settles (h : log.IsOf fault source.flatten unread) (limit : Nat) :
    Settles limit fault (log.got ++ unread) (readRequest limit fault [] source) := by
  rw [← h.octets]
  exact readFrom_settles (searched_zero [])

/-- What was read of a head tells how the request is read, whatever is still to come. -/
theorem reads (h : log.IsOf fault source.flatten unread) (hends : HeadEnds log.got e)
    (hfits : e ≤ limit) : ∃ read, readRequest limit fault [] source = .ok read ∧
      HeadEnds source.flatten e ∧ read.request.head = log.got.take e := by
  have hends' := (headEnds_append hends.le_length unread).mpr hends
  obtain ⟨read, hread, hhead, -⟩ := (h.settles limit).fits e hends' hfits
  refine ⟨read, hread, ?_, ?_⟩
  · rwa [h.octets]
  · rw [hhead, List.take_append_of_le_length hends.le_length]

theorem exceeds (h : log.IsOf fault source.flatten unread)
    (hlate : ∀ e, HeadEnds log.got e → limit < e) (hlong : limit ≤ log.got.length) :
    readRequest limit fault [] source = .error (.requestTooLarge limit) := by
  refine (h.settles limit).exceeds (late_append hlate hlong unread) ?_
  rw [List.length_append]
  omega

theorem fails {fault' : Fault} (h : log.IsOf fault source.flatten unread)
    (hended : log.ended = some fault') (hnone : ∀ e, ¬ HeadEnds log.got e)
    (hshort : log.got.length < limit) : readRequest limit fault [] source = .error (.stream fault) := by
  obtain ⟨-, rfl⟩ := h.ended fault' hended
  have hsettles := h.settles limit
  rw [List.append_nil] at hsettles
  exact hsettles.fails (fun e hends => absurd hends (hnone e)) hshort

end Log.IsOf

/-- How an attempt ends with an error: the head did not come, it was too long, or its reply is out as
far as the stream took it. -/
theorem Opening.Ends.of_error {log : Log} {error : OpeningError}
    (h : Ends limit log (.error error)) :
    ((∃ fault, log.ended = some fault) ∧ (∀ e, ¬ HeadEnds log.got e) ∧ log.got.length < limit ∧
      log.put = []) ∨
    ((∀ e, HeadEnds log.got e → limit < e) ∧ limit ≤ log.got.length ∧
      log.put <+: Bytes.ofString badRequestReply ∧
      (log.broken = false → log.put = Bytes.ofString badRequestReply)) ∨
    ∃ e, HeadEnds log.got e ∧ e ≤ limit ∧ log.put <+: (negotiate (log.got.take e)).reply ∧
      (log.broken = false → log.put = (negotiate (log.got.take e)).reply) ∧
      ((negotiate (log.got.take e)).isAccepted = true → log.pushed = false) := by
  generalize houtcome : Except.error error = outcome at h
  cases h with
  | unread hnone hshort => exact .inl ⟨⟨_, rfl⟩, hnone, hshort, rfl⟩
  | tooLong hlate hlong hput hwhole => exact .inr (.inl ⟨hlate, hlong, hput, hwhole⟩)
  | @replied got e rest hends hfits =>
    refine .inr (.inr ⟨e, hends, hfits, List.prefix_rfl, fun _ => rfl, ?_⟩)
    unfold Negotiation.isAccepted
    cases hnegotiated : (negotiate (got.take e)).outcome with
    | error error => nofun
    | ok =>
      rw [hnegotiated] at houtcome
      cases houtcome
  | @brokenOff got put e broken fault hends hfits hput hwhole =>
    exact .inr (.inr ⟨e, hends, hfits, hput, hwhole, fun _ => rfl⟩)

/-- A request for a session with the first octets of a frame after it. -/
def sampleOctets : Bytes :=
  Bytes.ofString ("GET / HTTP/1.1\r\nUpgrade: websocket\r\nConnection: Upgrade\r\n" ++
    "Sec-WebSocket-Key: dGhlIHNhbXBsZSBub25jZQ==\r\n\r\n") ++ [129, 128]

/-- The turns that a host gives an attempt are such turns: the link is the stream.  A part in which it
looks whether it may go on leaves the attempt as it is. -/
theorem runs_openingTurn {first a : Admission Link} {link : Link} {attempt : Attempt}
    (h : Runs Link.medium transport first a) (hattempt : a.host.attempt? transport = some attempt)
    (hlink : a.host.links[transport]? = some link) (hadmits : a.host.Admits transport) :
    ∃ last, Runs Link.medium transport first last ∧
      last.host = (a.host.openingTurn transport).1 := by
  have hfound : a.host.attempts.find? (·.transport = transport) = some attempt := hattempt
  cases hcleared : a.host.cleared with
  | false =>
    refine ⟨_, h.meanwhile { a.host with cleared := true } a.stream ⟨rfl, rfl⟩, ?_⟩
    simp only [Host.openingTurn, hfound, hlink, hcleared, hadmits.shutdown, Bool.false_eq_true,
      if_false]
  | true =>
  have hlogged := step_logged Link.medium link a.log a.host.settings.requestLimit attempt.phase
  cases hstep : attempt.phase.step Link.medium.logged a.host.settings.requestLimit (link, a.log) with
  | mk stream progress =>
  obtain ⟨link', log⟩ := stream
  rw [hstep] at hlogged
  let host := a.host.changeLink transport fun _ => link'
  have hspares : a.host.Spares host transport := ⟨rfl, rfl⟩
  have hruns := Runs.meanwhile host link h hspares
  have hadmits' : host.Admits transport :=
    ⟨hadmits.running, hadmits.shutdown, hadmits.early, hadmits.patient⟩
  refine ⟨_, hruns.turn hadmits', ?_⟩
  have hattempt' : host.attempt? transport = some attempt := hattempt
  have hturn := Admission.turn_of_attempt (a := { a with host := host, stream := link }) hattempt' hstep
  rw [hturn]
  show (host.proceed attempt progress).1 = _
  unfold Host.openingTurn
  rw [hfound, hlink]
  dsimp only
  rw [if_pos hcleared, ← hlogged]

end WebSocket
