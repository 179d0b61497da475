import Mathlib.Data.List.Nodup
import WebSocket.Proofs.Session.Grammar

/-!
# Failures of connections

A connection fails when its client breaks a rule or its stream a promise.  The engine reports the
failure, counts it, and tells the application of the end of the session, all at once and in that
order (`Accounted`); nothing else is reported or counted as a failure (`Engine.accounted_dispatch`).
Since the end of a session is told once, a connection fails once at most
(`Reached.failures_nodup`), and what ends for a connection after that is no failure
(`Engine.faultless_late`).
-/

namespace WebSocket

def Notice.failure? : Notice → Option (ConnectionId × ErrorKind)
  | violation id _ => some (id, .protocol)
  | readFailed id _ | writeFailed id _ => some (id, .io)
  | _ => none

def failures (effects : List Effect) : List (ConnectionId × ErrorKind) :=
  effects.filterMap fun
    | .report notice => notice.failure?
    | _ => none

def counted (effects : List Effect) : List ErrorKind :=
  effects.filterMap fun
    | .count (.error kind) => some kind
    | _ => none

/-- The connections of which the end of the session is told in the course of some effects. -/
def disconnects (effects : List Effect) : List ConnectionId :=
  effects.filterMap fun
    | .deliver id .disconnect => some id
    | _ => none

def Effect.tellsFailure : Effect → Bool
  | report notice => notice.failure?.isSome
  | count (.error _) => true
  | _ => false

def Faultless (effects : List Effect) : Prop := ∀ effect ∈ effects, effect.tellsFailure = false

/-- The report of a failure is followed by its count and the end of the session, and there is no
count without a report. -/
inductive Accounted : List Effect → Prop
  | nil : Accounted []
  | other {effect : Effect} {effects : List Effect} :
      effect.tellsFailure = false → Accounted effects → Accounted (effect :: effects)
  | failure {notice : Notice} {id : ConnectionId} {kind : ErrorKind} {effects : List Effect} :
      notice.failure? = some (id, kind) → Accounted effects →
      Accounted (.report notice :: .count (.error kind) :: .cancel id :: .report (.closed id) ::
        .deliver id .disconnect :: effects)

variable {effect : Effect} {effects more before after : List Effect} {id : ConnectionId}
  {kind : ErrorKind} {event : Event}

@[simp] theorem failures_append (effects more : List Effect) :
    failures (effects ++ more) = failures effects ++ failures more :=
  List.filterMap_append ..

@[simp] theorem counted_append (effects more : List Effect) :
    counted (effects ++ more) = counted effects ++ counted more :=
  List.filterMap_append ..

@[simp] theorem disconnects_append (effects more : List Effect) :
    disconnects (effects ++ more) = disconnects effects ++ disconnects more :=
  List.filterMap_append ..

theorem count_disconnects (id : ConnectionId) (effects : List Effect) :
    (disconnects effects).count id = (delivered (effectsOn id effects)).count .disconnect := by
  induction effects with
  | nil => rfl
  | cons effect effects ih =>
    have hsplit := effectsOn_append id [effect] effects
    rw [List.singleton_append] at hsplit
    rw [← List.singleton_append, disconnects_append, List.singleton_append, hsplit,
      delivered_append, List.count_append, List.count_append, ih]
    congr 1
    cases effect with
    | deliver other event =>
      by_cases hid : other = id <;> cases event <;>
        simp [disconnects, effectsOn, delivered, Effect.owner?, hid]
    | start operation =>
      by_cases hid : operation.id = id <;>
        simp [disconnects, effectsOn, delivered, Effect.owner?, hid]
    | queued other | cancel other =>
      by_cases hid : other = id <;> simp [disconnects, effectsOn, delivered, Effect.owner?, hid]
    | release | count | report => simp [disconnects, effectsOn, delivered, Effect.owner?]

theorem Notice.failure?_kind {notice : Notice} (h : notice.failure? = some (id, kind)) :
    kind = .protocol ∨ kind = .io := by
  cases notice <;> cases h <;> simp

namespace Faultless

@[simp] theorem nil : Faultless [] := nofun

@[simp] theorem cons_iff :
    Faultless (effect :: effects) ↔ effect.tellsFailure = false ∧ Faultless effects :=
  List.forall_mem_cons

@[simp] theorem append_iff : Faultless (effects ++ more) ↔ Faultless effects ∧ Faultless more :=
  List.forall_mem_append

@[simp] theorem startEffect (operation : Option Operation) : Faultless (startEffect operation) := by
  cases operation with
  | none => exact nil
  | some operation => exact cons_iff.mpr ⟨rfl, nil⟩

theorem accounted (h : Faultless effects) : Accounted effects := by
  induction effects with
  | nil => exact .nil
  | cons effect effects ih =>
    obtain ⟨heffect, heffects⟩ := cons_iff.mp h
    exact .other heffect (ih heffects)

theorem failures_eq (h : Faultless effects) : failures effects = [] := by
  rw [failures, List.filterMap_eq_nil_iff]
  intro effect hmem
  have hcalm := h effect hmem
  cases effect with
  | report notice => simpa [Effect.tellsFailure] using hcalm
  | _ => rfl

theorem counted_eq (h : Faultless effects) : counted effects = [] := by
  rw [counted, List.filterMap_eq_nil_iff]
  intro effect hmem
  have hcalm := h effect hmem
  cases effect with
  | count sample =>
    cases sample with
    | error kind => cases hcalm
    | _ => rfl
  | _ => rfl

end Faultless

/-! ## What is accounted for -/

namespace Accounted

theorem append (h : Accounted effects) (hmore : Accounted more) : Accounted (effects ++ more) := by
  induction h with
  | nil => exact hmore
  | other heffect _ ih => exact .other heffect ih
  | failure hnotice _ ih => exact .failure hnotice ih

theorem failures_cons {notice : Notice} (h : notice.failure? = some (id, kind))
    (effects : List Effect) : failures (.report notice :: .count (.error kind) :: .cancel id ::
      .report (.closed id) :: .deliver id .disconnect :: effects) =
        (id, kind) :: failures effects :=
  List.filterMap_cons_some h

/-- What is counted is what is reported. -/
theorem counted_eq (h : Accounted effects) : counted effects = (failures effects).map (·.2) := by
  induction h with
  | nil => rfl
  | @other effect effects heffect _ ih =>
    have hone : Faultless [effect] := by simp [heffect]
    rw [← List.singleton_append, counted_append, failures_append, hone.counted_eq,
      hone.failures_eq, ih]
    rfl
  | @failure notice id kind effects hnotice _ ih =>
    rw [failures_cons hnotice, List.map_cons, ← ih]
    rfl

/-- With each failure of a connection the end of its session is told. -/
theorem failures_sublist (h : Accounted effects) :
    ((failures effects).map (·.1)).Sublist (disconnects effects) := by
  induction h with
  | nil => exact .slnil
  | @other effect effects heffect _ ih =>
    have hone : Faultless [effect] := by simp [heffect]
    rw [← List.singleton_append, failures_append, disconnects_append, hone.failures_eq]
    exact ih.trans (List.sublist_append_right ..)
  | @failure notice id kind effects hnotice _ ih =>
    rw [failures_cons hnotice, List.map_cons]
    exact ih.cons_cons id

/-- Whenever the application is told something, no more was counted than ends of sessions have been
told. -/
theorem counted_before (h : Accounted (before ++ .deliver id event :: after)) :
    (counted before).length ≤ (disconnects (before ++ [.deliver id event])).length := by
  generalize hall : before ++ .deliver id event :: after = all at h
  induction h generalizing before with
  | nil => simp at hall
  | @other effect effects heffect _ ih =>
    cases before with
    | nil => exact Nat.zero_le _
    | cons first before =>
      obtain ⟨rfl, hlater⟩ := List.cons.inj hall
      have hone : Faultless [first] := by simp [heffect]
      show (counted ([first] ++ before)).length ≤
        (disconnects ([first] ++ (before ++ [.deliver id event]))).length
      rw [counted_append, hone.counted_eq, List.nil_append, disconnects_append, List.length_append]
      exact Nat.le_trans (ih hlater) (Nat.le_add_left ..)
  | failure hnotice _ ih =>
    -- The application is told something only at the end of the failure.
    match before, hall with
    | [], hall | [_], hall | [_, _], hall | [_, _, _], hall => cases hall
    | [_, _, _, _], hall =>
      cases hall
      exact Nat.le_refl 1
    | _ :: _ :: _ :: _ :: _ :: before, hall =>
      cases hall
      exact Nat.succ_le_succ (ih rfl)

end Accounted

/-! ## Handling mail -/

namespace Connection

variable {c : Connection} {error : FrameError}

theorem faultless_answer (c : Connection) (outgoing : Outgoing) :
    Faultless (c.answer outgoing).2 := by
  simp only [answer, Faultless.append_iff, Faultless.startEffect, and_true]
  split
  · exact Faultless.cons_iff.mpr ⟨rfl, .nil⟩
  · exact .nil

theorem faultless_receive (c : Connection) (frame : InboundFrame) :
    Faultless (c.receive frame).effects := by
  unfold receive
  split
  · split
    · exact Faultless.cons_iff.mpr ⟨rfl, .nil⟩
    · exact .nil
  · exact Faultless.cons_iff.mpr ⟨rfl, .nil⟩
  · exact c.faultless_answer _
  · exact .nil
  · exact c.markClosing.faultless_answer _
  · exact .nil

theorem faultless_consumeFrom (c : Connection) (octets : Bytes) :
    Faultless (c.consumeFrom octets).effects := by
  fun_induction c.consumeFrom octets with
  | case1 | case2 | case3 => exact .nil
  | case4 c octets hopen decoded c' frame hframe first error herror =>
    exact Faultless.cons_iff.mpr ⟨rfl, c'.faultless_receive frame⟩
  | case5 c octets hopen decoded c' frame hframe first hnone later ih =>
    exact Faultless.cons_iff.mpr ⟨rfl, Faultless.append_iff.mpr ⟨c'.faultless_receive frame, ih⟩⟩

theorem faultless_consume (c : Connection) : Faultless c.consume.effects := by
  unfold consume
  split
  · exact .nil
  · exact c.faultless_consumeFrom _

/-- A violation is found in the input of an open connection only, which it leaves open. -/
theorem closed_of_violation (h : c.consume.violation = some error) :
    c.consume.connection.closed = false := by
  rw [c.grows_consume.closed]
  cases hclosed : c.closed with
  | false => rfl
  | true =>
    have hnone : c.consume.violation = none := by
      unfold consume
      split
      · rfl
      · rw [consumeFrom]
        simp [hclosed]
    rw [hnone] at h
    cases h

end Connection

namespace Engine

variable {e : Engine} {c : Connection}

theorem faultless_remove (e : Engine) (id : ConnectionId) : Faultless (e.remove id).2 := by
  unfold remove
  split
  · exact .nil
  · rename_i c _
    cases c.reader <;> simp [Effect.tellsFailure]

theorem faultless_drop (e : Engine) (id : ConnectionId) : Faultless (e.drop id).2 := by
  unfold drop
  split
  · exact .nil
  · simp only [Faultless.append_iff, faultless_remove, and_true]
    split <;> simp [Effect.tellsFailure, Notice.failure?]

/-- To fail, a connection has to be open. -/
theorem accounted_drop (h : e.table.find? id = some c) (hopen : c.closed = false)
    {notice : Notice} (hnotice : notice.failure? = some (id, kind)) :
    Accounted (.report notice :: .count (.error kind) :: (e.drop id).2) := by
  unfold drop
  simp only [h, Connection.close, hopen, Bool.false_eq_true, if_false]
  exact .failure hnotice (faultless_remove _ id).accounted

theorem accounted_process (e : Engine) (id : ConnectionId) : Accounted (e.process id).2 := by
  unfold process
  split
  · exact .nil
  · rename_i c hfound
    simp only
    split
    · rename_i error hviolation
      have hopen := Connection.closed_of_violation hviolation
      exact c.faultless_consume.accounted.append
        (accounted_drop (find?_put_self hfound _) hopen rfl)
    · exact (Faultless.append_iff.mpr ⟨c.faultless_consume, .startEffect _⟩).accounted

theorem accounted_register (e : Engine) (transport : Transport) (peer : Option SocketAddress)
    (leftover : ReceiveBuffer) : Accounted (e.register transport peer leftover).2 := by
  unfold register
  split
  · exact .other rfl .nil
  · exact .other rfl (.other rfl (.other rfl (accounted_process _ _)))

theorem accounted_onRead (e : Engine) (id : ConnectionId) (reader : Transport)
    (input : ReceiveBuffer) (result : Except Fault Nat) :
    Accounted (e.onRead id reader input result).2 := by
  unfold onRead
  split
  · exact .other rfl .nil
  · rename_i c hfound
    simp only
    split
    · exact (faultless_drop _ id).accounted
    · rename_i hopen
      split
      · exact (faultless_drop _ id).accounted
      · exact accounted_process _ id
      · exact accounted_drop (find?_put_self hfound _) (by simpa using hopen) rfl

theorem accounted_onWrite (e : Engine) (id : ConnectionId) (writer : Transport)
    (result : Except Fault Unit) : Accounted (e.onWrite id writer result).2 := by
  unfold onWrite
  split
  · exact .other rfl .nil
  · rename_i c hfound
    simp only
    split
    · exact (faultless_drop _ id).accounted
    · rename_i hopen
      split
      · exact accounted_drop (find?_put_self hfound _) (by simpa using hopen) rfl
      · refine .other rfl (Faultless.accounted ?_)
        split
        · exact faultless_drop _ id
        · exact .startEffect _

theorem faultless_dropAll (e : Engine) (ids : List ConnectionId) :
    Faultless (e.dropAll ids).2 := by
  induction ids generalizing e with
  | nil => exact .nil
  | cons id ids ih => exact Faultless.append_iff.mpr ⟨e.faultless_drop id, ih _⟩

theorem faultless_request (e : Engine) (request : Request) :
    Faultless (e.dispatch (.request request)).2 := by
  cases request with
  | send id message loan =>
    simp only [dispatch, send]
    split
    · exact .nil
    · exact Connection.faultless_answer _ _
  | drop id => exact e.faultless_drop id
  | closeAll => exact Faultless.cons_iff.mpr ⟨rfl, faultless_dropAll _ _⟩

/-- Whatever mail is handled, all failures are accounted for. -/
theorem accounted_dispatch (e : Engine) (mail : Mail) : Accounted (e.dispatch mail).2 := by
  cases mail with
  | completion completion =>
    cases completion with
    | registered transport peer leftover => exact e.accounted_register transport peer leftover
    | read id reader input result => exact e.accounted_onRead id reader input result
    | write id writer result => exact e.accounted_onWrite id writer result
  | request request => exact (e.faultless_request request).accounted

/-- The end of a read or of a write is no failure of a connection that has closed or is gone,
whatever its result. -/
theorem faultless_late {mail : Mail} {errand : Errand} (hmail : mail.errand? = some (id, errand))
    (hclosed : ∀ c, e.table.find? id = some c → c.closed = true) :
    Faultless (e.dispatch mail).2 := by
  cases mail with
  | request request => exact e.faultless_request request
  | completion completion =>
    cases completion with
    | registered transport peer leftover => cases hmail
    | read other reader input result =>
      cases hmail
      simp only [dispatch, onRead]
      split
      · exact Faultless.cons_iff.mpr ⟨rfl, .nil⟩
      · rename_i c hfound
        have hreturned : (c.finishRead reader input).closed = true := hclosed c hfound
        rw [if_pos hreturned]
        exact faultless_drop _ id
    | write other writer result =>
      cases hmail
      simp only [dispatch, onWrite]
      split
      · exact Faultless.cons_iff.mpr ⟨rfl, .nil⟩
      · rename_i c hfound
        rw [if_pos ((c.continues_finishWrite writer).closed.trans (hclosed c hfound))]
        exact faultless_drop _ id

end Engine

/-! ## Courses -/

/-- The end of a session is told once at most. -/
theorem Tells.count_disconnect_le {events : List Event} {now : Option Connection}
    (h : Tells events now) : events.count .disconnect ≤ 1 := by
  obtain ⟨messages, rfl⟩ := h
  have hnone : .disconnect ∉ messages.map Event.message := by simp
  rw [List.count_cons_of_ne (by nofun), List.count_append, List.count_eq_zero_of_not_mem hnone]
  split <;> simp

namespace Reached

variable {limit : Nat} {mails : List Mail} {s : Course}

theorem accounted (h : Reached limit mails s) : Accounted s.effects := by
  induction h with
  | start => exact .nil
  | mail _ _ ih => exact ih.append (Engine.accounted_dispatch _ _)

theorem disconnects_nodup (h : Reached limit mails s) : (disconnects s.effects).Nodup := by
  rw [List.nodup_iff_count_le_one]
  intro id
  rw [count_disconnects]
  cases hstream : streamOf? mails id with
  | none =>
    rw [(h.nothing_of_unknown hstream).2.2]
    exact Nat.zero_le _
  | some transport =>
    obtain ⟨_, _, l, hlived, hs⟩ := h.shows_of_known hstream
    rw [hs.delivered_eq hlived.confined]
    exact hlived.tells.count_disconnect_le

/-- A connection fails once at most. -/
theorem failures_nodup (h : Reached limit mails s) : ((failures s.effects).map (·.1)).Nodup :=
  h.accounted.failures_sublist.nodup h.disconnects_nodup

end Reached

end WebSocket
