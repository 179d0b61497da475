import Mathlib.Data.List.Basic
import WebSocket.Proofs.Session.Entries

/-!
# Errands

A piece of mail is for one connection, or it closes every connection, or it brings a new one.  What
it asks of a single connection is an `Errand`.  `Connection.attend` runs an errand on the connection
alone: the result is the connection, unless it leaves the table, and the effects.  For a connection
that is in a numbered table, the engine does just that (`Engine.dispatch_of_errand`):

    e.dispatch mail = (e.become id (c.attend errand).1, (c.attend errand).2)
-/

namespace WebSocket

/-! ## Effects on one connection -/

def Operation.id : Operation → ConnectionId
  | read id _ _ => id
  | write id _ _ => id

def Operation.isRead : Operation → Bool
  | read .. => true
  | write .. => false

/-- The connection that an effect tells of or acts on, apart from reports and samples. -/
def Effect.owner? : Effect → Option ConnectionId
  | deliver id _ => some id
  | queued id _ => some id
  | start operation => some operation.id
  | cancel id => some id
  | release _ | count _ | report _ => none

def effectsOn (id : ConnectionId) (effects : List Effect) : List Effect :=
  effects.filter fun effect => effect.owner? == some id

def delivered (effects : List Effect) : List Event :=
  effects.filterMap fun
    | .deliver _ event => some event
    | _ => none

def joined (effects : List Effect) : List ServerFrame :=
  effects.filterMap fun
    | .queued _ frame => some frame
    | _ => none

def begun (effects : List Effect) : List Operation :=
  effects.filterMap fun
    | .start operation => some operation
    | _ => none

section

variable (id : ConnectionId) (effects more : List Effect)

@[simp] theorem effectsOn_append :
    effectsOn id (effects ++ more) = effectsOn id effects ++ effectsOn id more :=
  List.filter_append ..

@[simp] theorem delivered_append :
    delivered (effects ++ more) = delivered effects ++ delivered more :=
  List.filterMap_append ..

@[simp] theorem joined_append : joined (effects ++ more) = joined effects ++ joined more :=
  List.filterMap_append ..

@[simp] theorem begun_append : begun (effects ++ more) = begun effects ++ begun more :=
  List.filterMap_append ..

end

theorem begun_startEffect (operation : Option Operation) :
    begun (startEffect operation) = operation.toList := by
  cases operation <;> rfl

theorem delivered_startEffect (operation : Option Operation) :
    delivered (startEffect operation) = [] := by
  cases operation <;> rfl

theorem joined_startEffect (operation : Option Operation) :
    joined (startEffect operation) = [] := by
  cases operation <;> rfl

/-- The operations that one connection begins. -/
theorem begun_effectsOn (id : ConnectionId) (effects : List Effect) :
    begun (effectsOn id effects) = (begun effects).filter (·.id = id) := by
  rw [begun, begun, effectsOn, List.filterMap_filter, List.filter_filterMap]
  congr 1
  funext effect
  cases effect with
  | start operation => by_cases h : operation.id = id <;> simp [Effect.owner?, Option.filter, h]
  | _ => simp

theorem begun_eq_nil {effects : List Effect} (h : ∀ id, begun (effectsOn id effects) = []) :
    begun effects = [] := by
  rw [List.eq_nil_iff_forall_not_mem]
  intro operation hmem
  have hof : operation ∈ (begun effects).filter (·.id = operation.id) :=
    List.mem_filter.mpr ⟨hmem, decide_eq_true rfl⟩
  rw [← begun_effectsOn, h operation.id] at hof
  cases hof

theorem mem_joined_effectsOn {id : ConnectionId} {effects : List Effect} {frame : ServerFrame} :
    frame ∈ joined (effectsOn id effects) ↔ .queued id frame ∈ effects := by
  rw [joined, effectsOn, List.filterMap_filter, List.mem_filterMap]
  constructor
  · rintro ⟨effect, hmem, hframe⟩
    cases effect <;> simp_all [Effect.owner?]
  · intro hmem
    exact ⟨_, hmem, by simp [Effect.owner?]⟩

/-- Whether an effect may come from a given connection that is in the table: it concerns no other
connection, and it does not report a completion for a connection that is not there. -/
def Effect.IsOf (id : ConnectionId) : Effect → Prop
  | deliver other _ | queued other _ | cancel other => other = id
  | start operation => operation.id = id
  | report (.strayRead _) | report (.strayWrite _) => False
  | release _ | count _ | report _ => True

/-- Effects that may all come from a given connection. -/
def Confined (id : ConnectionId) (effects : List Effect) : Prop :=
  ∀ effect ∈ effects, effect.IsOf id

namespace Confined

variable {id : ConnectionId} {effect : Effect} {effects more : List Effect}

theorem nil : Confined id [] := by
  intro effect hmem
  cases hmem

theorem cons (h : effect.IsOf id) (h' : Confined id effects) : Confined id (effect :: effects) := by
  intro e hmem
  rcases List.mem_cons.mp hmem with rfl | hm
  · exact h
  · exact h' e hm

theorem append (h : Confined id effects) (h' : Confined id more) :
    Confined id (effects ++ more) := by
  intro effect hmem
  rcases List.mem_append.mp hmem with hm | hm
  · exact h effect hm
  · exact h' effect hm

theorem effectsOn_other (h : Confined id effects) {other : ConnectionId} (hne : other ≠ id) :
    effectsOn other effects = [] := by
  rw [effectsOn, List.filter_eq_nil_iff]
  intro effect hmem
  have hof := h effect hmem
  cases effect <;> simp_all [Effect.IsOf, Effect.owner?, Ne.symm hne]

/-- Effects that may all come from one connection lose nothing that is of it when they are taken
alone. -/
theorem filterMap_effectsOn (h : Confined id effects) {α : Type} (f : Effect → Option α)
    (hf : ∀ effect, effect.owner? = none → f effect = none) :
    (effectsOn id effects).filterMap f = effects.filterMap f := by
  rw [effectsOn, List.filterMap_filter]
  apply List.filterMap_congr
  intro effect hmem
  have hof := h effect hmem
  cases howner : effect.owner? with
  | none => simp [hf effect howner]
  | some other =>
    have hid : other = id := by cases effect <;> simp_all [Effect.IsOf, Effect.owner?]
    simp [hid]

theorem joined_effectsOn (h : Confined id effects) :
    joined (effectsOn id effects) = joined effects :=
  h.filterMap_effectsOn _ fun effect howner => by cases effect <;> simp_all [Effect.owner?]

theorem delivered_effectsOn (h : Confined id effects) :
    delivered (effectsOn id effects) = delivered effects :=
  h.filterMap_effectsOn _ fun effect howner => by cases effect <;> simp_all [Effect.owner?]

theorem stray_not_mem (h : Confined id effects) (other : ConnectionId) :
    .report (.strayRead other) ∉ effects ∧ .report (.strayWrite other) ∉ effects :=
  ⟨fun hmem => h _ hmem, fun hmem => h _ hmem⟩

end Confined

/-- Whether an effect is only to be recorded, and not because of a connection that is not there. -/
def Effect.isNote : Effect → Bool
  | report (.strayRead _) | report (.strayWrite _) => false
  | count _ | report _ => true
  | _ => false

/-- Effects that are only to be recorded. -/
def Notes (effects : List Effect) : Prop := ∀ effect ∈ effects, effect.isNote = true

namespace Notes

variable {effect : Effect} {effects : List Effect}

theorem nil : Notes [] := nofun

theorem cons (h : effect.isNote = true) (h' : Notes effects) : Notes (effect :: effects) := by
  intro e hmem
  rcases List.mem_cons.mp hmem with rfl | hm
  · exact h
  · exact h' e hm

theorem confined (h : Notes effects) (id : ConnectionId) : Confined id effects := by
  intro effect hmem
  have hnote := h effect hmem
  unfold Effect.isNote at hnote
  unfold Effect.IsOf
  split at hnote <;> simp_all

theorem begun_eq (h : Notes effects) : begun effects = [] := by
  rw [begun, List.filterMap_eq_nil_iff]
  intro effect hmem
  have hnote := h effect hmem
  cases effect with
  | start operation => cases hnote
  | _ => rfl

theorem joined_eq (h : Notes effects) : joined effects = [] := by
  rw [joined, List.filterMap_eq_nil_iff]
  intro effect hmem
  have hnote := h effect hmem
  cases effect with
  | queued id frame => cases hnote
  | _ => rfl

theorem delivered_eq (h : Notes effects) : delivered effects = [] := by
  rw [delivered, List.filterMap_eq_nil_iff]
  intro effect hmem
  have hnote := h effect hmem
  cases effect with
  | deliver id event => cases hnote
  | _ => rfl

theorem effectsOn_eq (h : Notes effects) (id : ConnectionId) : effectsOn id effects = [] := by
  refine List.filter_eq_nil_iff.mpr fun effect hmem => ?_
  have hnote := h effect hmem
  cases effect with
  | release | count | report => exact Bool.false_ne_true
  | _ => cases hnote

end Notes

/-! ## One connection alone -/

/-- What a piece of mail asks of one connection. -/
inductive Errand where
  /-- A read has ended. -/
  | read (reader : Transport) (input : ReceiveBuffer) (result : Except Fault Nat)
  /-- A write has ended. -/
  | write (writer : Transport) (result : Except Fault Unit)
  | send (message : Message) (loan : Option Loan)
  | drop

/-- The connection that a piece of mail is for, and what it asks of it. -/
def Mail.errand? : Mail → Option (ConnectionId × Errand)
  | .completion (.registered ..) => none
  | .completion (.read id reader input result) => some (id, .read reader input result)
  | .completion (.write id writer result) => some (id, .write writer result)
  | .request (.send id message loan) => some (id, .send message loan)
  | .request (.drop id) => some (id, .drop)
  | .request .closeAll => none

def Mail.errandFor? (id : ConnectionId) (mail : Mail) : Option Errand :=
  match mail, mail.errand? with
  | .request .closeAll, _ => some .drop
  | _, some (other, errand) => if other = id then some errand else none
  | _, none => none

theorem Mail.errandFor?_of_errand {mail : Mail} {other : ConnectionId} {errand : Errand}
    (h : mail.errand? = some (other, errand)) (id : ConnectionId) :
    mail.errandFor? id = if other = id then some errand else none := by
  unfold errandFor?
  split
  · cases h
  · rename_i other' errand' hmail
    cases h.symm.trans hmail
    rfl
  · rename_i hmail
    cases h.symm.trans hmail

def Mail.isCloseAll : Mail → Bool
  | .request .closeAll => true
  | _ => false

def Mail.stream? : Mail → Option Transport
  | .completion (.registered transport _ _) => some transport
  | _ => none

theorem Mail.isCloseAll_of_errand {mail : Mail} {id : ConnectionId} {errand : Errand}
    (h : mail.errand? = some (id, errand)) : mail.isCloseAll = false := by
  unfold isCloseAll
  split
  · cases h
  · rfl

theorem Mail.stream?_of_errand {mail : Mail} {id : ConnectionId} {errand : Errand}
    (h : mail.errand? = some (id, errand)) : mail.stream? = none := by
  unfold stream?
  split
  · cases h
  · rfl

theorem Mail.stream?_eq_none {mail : Mail}
    (h : ∀ transport peer leftover, mail ≠ .completion (.registered transport peer leftover)) :
    mail.stream? = none := by
  unfold stream?
  split
  · rename_i transport peer leftover
    exact absurd rfl (h transport peer leftover)
  · rfl

/-- Mail brings a new connection, closes every connection, or is for one. -/
theorem Mail.kinds (mail : Mail) :
    (∃ transport peer leftover, mail = .completion (.registered transport peer leftover)) ∨
      mail = .request .closeAll ∨ ∃ id errand, mail.errand? = some (id, errand) := by
  cases mail with
  | completion completion =>
    cases completion with
    | registered transport peer leftover => exact .inl ⟨_, _, _, rfl⟩
    | read id reader input result => exact .inr (.inr ⟨_, _, rfl⟩)
    | write id writer result => exact .inr (.inr ⟨_, _, rfl⟩)
  | request request =>
    cases request with
    | send id message loan => exact .inr (.inr ⟨_, _, rfl⟩)
    | drop id => exact .inr (.inr ⟨_, _, rfl⟩)
    | closeAll => exact .inr (.inl rfl)

namespace Connection

/-- Close the connection; it leaves if nothing is in flight. -/
def dropped (c : Connection) : Option Connection × List Effect :=
  let (c, first) := c.close
  let told : List Effect :=
    if first then [.cancel c.id, .report (.closed c.id), .deliver c.id .disconnect] else []
  if c.isRemovable then (none, told ++ .count .closed :: (c.reader.map Effect.release).toList)
  else (some c, told)

/-- Close the connection because its client broke a rule. -/
def violated (c : Connection) (error : FrameError) : Option Connection × List Effect :=
  (c.dropped.1, .report (.violation c.id error) :: .count (.error .protocol) :: c.dropped.2)

/-- Close the connection because its stream failed. -/
def failed (c : Connection) (notice : Notice) : Option Connection × List Effect :=
  (c.dropped.1, .report notice :: .count (.error .io) :: c.dropped.2)

/-- Handle the input, and read more of it. -/
def processed (c : Connection) : Option Connection × List Effect :=
  let handled := c.consume
  match handled.violation with
  | some error =>
    let (now, effects) := handled.connection.violated error
    (now, handled.effects ++ effects)
  | none =>
    let (c, operation) := handled.connection.beginRead
    (some c, handled.effects ++ startEffect operation)

/-- Begin the session: tell the application, and handle the octets that are there. -/
def opened (c : Connection) : Option Connection × List Effect :=
  (c.processed.1,
    .count .opened :: .report (.opened c.id c.peer) :: .deliver c.id .newConnection
      :: c.processed.2)

/-- Go on after a write that was not in vain: with the next frame, or with the end. -/
def wrote (c : Connection) (written : Option ServerFrame) : Option Connection × List Effect :=
  if written.any (·.opcode == .close) then c.dropped
  else
    let (c, operation) := c.beginWrite
    (some c, startEffect operation)

def attend (c : Connection) : Errand → Option Connection × List Effect
  | .read reader input result =>
    let c := c.finishRead reader input
    if c.closed then c.dropped
    else
      match result with
      | .ok 0 => c.dropped
      | .ok _ => c.processed
      | .error fault => c.failed (.readFailed c.id fault)
  | .write writer result =>
    let (c, written) := c.finishWrite writer
    if c.closed then c.dropped
    else
      match result with
      | .error fault => c.failed (.writeFailed c.id fault)
      | .ok () =>
        let (now, effects) := c.wrote written
        (now, .count (.frame .outbound) :: effects)
  | .send message loan =>
    let (c, effects) := c.answer ⟨message.frame, loan⟩
    (some c, effects)
  | .drop => c.dropped

end Connection

end WebSocket
