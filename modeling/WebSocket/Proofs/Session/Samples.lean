import WebSocket.Session.Engine

/-!
# What the engine counts and reports

The engine counts the connections, the frames and two classes of error, and it reports what becomes
of its connections (`Effect.isOwn`).  It has no part in the other classes, which are counted where
clients are let in and where the application is told of events (`Engine.own_dispatch`).
-/

namespace WebSocket

def Sample.isOwn : Sample → Bool
  | opened | closed | frame _ | error .protocol | error .io => true
  | error .handshake | error .accept | error .panic => false

/-- No other sample touches the count of a class of error. -/
theorem Sample.metric_ne_error {sample : Sample} {kind : ErrorKind} (h : sample ≠ .error kind) :
    sample.metric ≠ (Sample.error kind).metric := by
  cases sample with
  | opened | closed => cases kind <;> decide +kernel
  | frame direction => cases direction <;> cases kind <;> decide +kernel
  | error other => cases other <;> cases kind <;> first | exact absurd rfl h | decide +kernel

def Notice.isOwn : Notice → Bool
  | opened .. | closed _ | closingAll _ | violation .. | readFailed .. | writeFailed ..
  | strayRead _ | strayWrite _ => true
  | _ => false

def Effect.isOwn : Effect → Bool
  | count sample => sample.isOwn
  | report notice => notice.isOwn
  | _ => true

/-- Effects that count and report no more than the engine does. -/
def Own (effects : List Effect) : Prop := ∀ effect ∈ effects, effect.isOwn = true

namespace Own

variable {effects more : List Effect} {effect : Effect}

@[simp] theorem nil : Own [] := nofun

@[simp] theorem cons_iff : Own (effect :: effects) ↔ effect.isOwn = true ∧ Own effects :=
  List.forall_mem_cons

@[simp] theorem append_iff : Own (effects ++ more) ↔ Own effects ∧ Own more :=
  List.forall_mem_append

@[simp] theorem startEffect (operation : Option Operation) : Own (startEffect operation) := by
  cases operation with
  | none => exact nil
  | some operation => exact cons_iff.mpr ⟨rfl, nil⟩

end Own

namespace Connection

variable (c : Connection)

theorem own_answer (outgoing : Outgoing) : Own (c.answer outgoing).2 := by
  simp only [answer, Own.append_iff, Own.startEffect, and_true]
  split
  · exact Own.cons_iff.mpr ⟨rfl, .nil⟩
  · exact .nil

theorem own_receive (frame : InboundFrame) : Own (c.receive frame).effects := by
  unfold receive
  split
  · split
    · exact Own.cons_iff.mpr ⟨rfl, .nil⟩
    · exact .nil
  · exact Own.cons_iff.mpr ⟨rfl, .nil⟩
  · exact c.own_answer _
  · exact .nil
  · exact c.markClosing.own_answer _
  · exact .nil

theorem own_consumeFrom (octets : Bytes) : Own (c.consumeFrom octets).effects := by
  fun_induction c.consumeFrom octets with
  | case1 | case2 | case3 => exact .nil
  | case4 c octets hopen decoded c' frame hframe first error herror =>
    exact Own.cons_iff.mpr ⟨rfl, c'.own_receive frame⟩
  | case5 c octets hopen decoded c' frame hframe first hnone later ih =>
    exact Own.cons_iff.mpr ⟨rfl, Own.append_iff.mpr ⟨c'.own_receive frame, ih⟩⟩

theorem own_consume : Own c.consume.effects := by
  unfold consume
  split
  · exact .nil
  · exact c.own_consumeFrom _

end Connection

namespace Engine

variable (e : Engine) (id : ConnectionId)

theorem own_remove : Own (e.remove id).2 := by
  unfold remove
  split
  · exact .nil
  · rename_i c _
    cases c.reader <;> simp [Effect.isOwn, Sample.isOwn]

theorem own_drop : Own (e.drop id).2 := by
  unfold drop
  split
  · exact .nil
  · simp only [Own.append_iff, own_remove, and_true]
    split <;> simp [Effect.isOwn, Notice.isOwn]

theorem own_violate (error : FrameError) : Own (e.violate id error).2 := by
  simp [violate, own_drop, Effect.isOwn, Notice.isOwn, Sample.isOwn]

theorem own_fail {notice : Notice} (h : notice.isOwn = true) : Own (e.fail id notice).2 := by
  simp [fail, own_drop, Effect.isOwn, Sample.isOwn, h]

theorem own_process : Own (e.process id).2 := by
  unfold process
  split
  · exact .nil
  · simp only
    split <;> simp [Connection.own_consume, own_violate]

theorem own_register (transport : Transport) (peer : Option SocketAddress)
    (leftover : ReceiveBuffer) : Own (e.register transport peer leftover).2 := by
  unfold register
  split <;> simp [own_process, Effect.isOwn, Notice.isOwn, Sample.isOwn]

theorem own_send (message : Message) (loan : Option Loan) : Own (e.send id message loan).2 := by
  unfold send
  split
  · exact .nil
  · exact Connection.own_answer _ _

theorem own_onRead (reader : Transport) (input : ReceiveBuffer) (result : Except Fault Nat) :
    Own (e.onRead id reader input result).2 := by
  unfold onRead
  split
  · exact Own.cons_iff.mpr ⟨rfl, .nil⟩
  · simp only
    split
    · exact own_drop _ _
    · split
      · exact own_drop _ _
      · exact own_process _ _
      · exact own_fail _ _ rfl

theorem own_onWrite (writer : Transport) (result : Except Fault Unit) :
    Own (e.onWrite id writer result).2 := by
  unfold onWrite
  split
  · exact Own.cons_iff.mpr ⟨rfl, .nil⟩
  · simp only
    split
    · exact own_drop _ _
    · split
      · exact own_fail _ _ rfl
      · refine Own.cons_iff.mpr ⟨rfl, ?_⟩
        split
        · exact own_drop _ _
        · exact .startEffect _

theorem own_dropAll (ids : List ConnectionId) : Own (e.dropAll ids).2 := by
  induction ids generalizing e with
  | nil => exact .nil
  | cons id ids ih => exact Own.append_iff.mpr ⟨e.own_drop id, ih _⟩

/-- Whatever mail the engine handles, it counts and reports no more than is its own. -/
theorem own_dispatch (mail : Mail) : Own (e.dispatch mail).2 := by
  cases mail with
  | completion completion =>
    cases completion with
    | registered transport peer leftover => exact e.own_register transport peer leftover
    | read id reader input result => exact e.own_onRead id reader input result
    | write id writer result => exact e.own_onWrite id writer result
  | request request =>
    cases request with
    | send id message loan => exact e.own_send id message loan
    | drop id => exact e.own_drop id
    | closeAll => exact Own.cons_iff.mpr ⟨rfl, own_dropAll _ _⟩

end Engine

end WebSocket
