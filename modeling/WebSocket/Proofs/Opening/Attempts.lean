import WebSocket.Opening.Attempt
import WebSocket.Proofs.Opening.Reading
import WebSocket.Proofs.Opening.Requests

/-!
# What comes of an attempt

An attempt to open a session reads, writes and flushes a stream, and each of these operations may do
part of what it is asked to, fail, or have to wait.  A `Log` keeps what was done on the stream.  As
long as an attempt goes on, it stands as its log says (`Stands`), and when it ends, it ends so
(`Ends`): it has put the reply that is due on the stream, and passes on what was read after the
request, or the stream has failed.  Every step that need not wait brings the end nearer (`steps`).
-/

namespace WebSocket

/-! ## Logs -/

/-- What has been done on a stream. -/
structure Log where
  /-- The octets that were read. -/
  got : Bytes
  /-- Why there was no more to read, once that was found out. -/
  ended : Option Fault
  /-- The octets that the stream took. -/
  put : Bytes
  /-- Whether they were pushed on. -/
  pushed : Bool
  /-- Whether the stream failed to take octets. -/
  broken : Bool

namespace Log

def empty : Log := ⟨[], none, [], false, false⟩

def afterRead (log : Log) : Polled Bytes → Log
  | .done [] => { log with ended := some .unexpectedEof }
  | .done data => { log with got := log.got ++ data }
  | .failed fault => { log with ended := some fault }
  | .pending => log

def afterWrite (log : Log) (octets : Bytes) : Polled Nat → Log
  | .done 0 => { log with broken := true }
  | .done n => { log with put := log.put ++ octets.take n }
  | .failed _ => { log with broken := true }
  | .pending => log

def afterFlush (log : Log) : Polled Unit → Log
  | .done () => { log with pushed := true }
  | .failed _ => log
  | .pending => log

end Log

def Medium.logged {σ : Type} (medium : Medium σ) : Medium (σ × Log) where
  read stream most :=
    let (rest, polled) := medium.read stream.1 most
    ((rest, stream.2.afterRead polled), polled)
  write stream octets :=
    let (rest, polled) := medium.write stream.1 octets
    ((rest, stream.2.afterWrite octets polled), polled)
  flush stream :=
    let (rest, polled) := medium.flush stream.1
    ((rest, stream.2.afterFlush polled), polled)

section

variable {σ : Type} (medium : Medium σ) (stream : σ) (log : Log)

theorem Medium.logged_read (most : Nat) : medium.logged.read (stream, log) most =
    (((medium.read stream most).1, log.afterRead (medium.read stream most).2),
      (medium.read stream most).2) := rfl

theorem Medium.logged_write (octets : Bytes) : medium.logged.write (stream, log) octets =
    (((medium.write stream octets).1, log.afterWrite octets (medium.write stream octets).2),
      (medium.write stream octets).2) := rfl

theorem Medium.logged_flush : medium.logged.flush (stream, log) =
    (((medium.flush stream).1, log.afterFlush (medium.flush stream).2),
      (medium.flush stream).2) := rfl

end

namespace Opening

/-! ## Replies -/

/-- No reply is longer. -/
def longestReply : Nat := 256

theorem length_ofString_ofList (text : List Char) :
    (Bytes.ofString (String.ofList text)).length ≤ 4 * text.length := by
  induction text with
  | nil => simp [Bytes.ofString]
  | cons c text ih =>
    simp only [Bytes.ofString, String.toByteArray_ofList] at ih ⊢
    rw [List.utf8Encode_cons]
    have hsize := c.utf8Size_le_four
    simp only [ByteArray.data_append, Array.toList_append, List.length_append, List.length_cons]
    have hone : [c].utf8Encode.data.toList.length = c.utf8Size := by
      simp [List.utf8Encode]
    omega

theorem length_acceptance (key : String) :
    (Bytes.ofString (acceptance key)).length ≤ longestReply := by
  have hkey := length_ofString_ofList
    (Base64.encode (Sha1.digest (Bytes.ofString key ++ Bytes.ofString keySuffix)))
  rw [Base64.length_encode, Sha1.length_digest] at hkey
  unfold acceptance acceptKey
  rw [Bytes.ofString_append, Bytes.ofString_append, List.length_append, List.length_append]
  -- The key stands between two fixed texts.
  refine Nat.le_trans (Nat.add_le_add (Nat.add_le_add ?_ hkey) ?_)
    (by decide : 140 + 4 * ((20 + 2) / 3 * 4) + 4 ≤ longestReply)
  · decide +kernel
  · decide +kernel

theorem length_reply (request : Bytes) : (negotiate request).reply.length ≤ longestReply := by
  unfold negotiate
  cases checkRequest request with
  | ok key => exact length_acceptance key
  | error error =>
    unfold OpeningError.reply
    dsimp only
    split
    · decide +kernel
    · decide +kernel

/-! ## Standing and ending -/

/-- How an attempt stands while it goes on. -/
inductive Stands (limit : Nat) : Log → Phase → Prop
  | reading {received : ReceiveBuffer} {searched : Nat} :
      Searched received.toList searched →
      Stands limit ⟨received.toList, none, [], false, false⟩ (.reading received searched)
  /-- The head is too long. -/
  | refusing {got put unsent : Bytes} :
      (∀ e, HeadEnds got e → limit < e) → limit ≤ got.length →
      put ++ unsent = Bytes.ofString badRequestReply →
      Stands limit ⟨got, none, put, false, false⟩ (.refusing unsent (.requestTooLarge limit))
  /-- The head has been read, and what came with it is kept. -/
  | replying {got put unsent : Bytes} {e : Nat} {leftover : ReceiveBuffer} :
      HeadEnds got e → e ≤ limit → leftover.toList = got.drop e →
      put ++ unsent = (negotiate (got.take e)).reply →
      Stands limit ⟨got, none, put, false, false⟩
        (.replying unsent ((negotiate (got.take e)).outcome.map fun _ => leftover))

inductive Ends (limit : Nat) : Log → Except OpeningError ReceiveBuffer → Prop
  /-- There is no head, and no more octets come. -/
  | unread {got : Bytes} {fault : Fault} :
      (∀ e, ¬ HeadEnds got e) → got.length < limit →
      Ends limit ⟨got, some fault, [], false, false⟩ (.error (.stream fault))
  | tooLong {got put : Bytes} {broken : Bool} :
      (∀ e, HeadEnds got e → limit < e) → limit ≤ got.length →
      put <+: Bytes.ofString badRequestReply →
      (broken = false → put = Bytes.ofString badRequestReply) →
      Ends limit ⟨got, none, put, false, broken⟩ (.error (.requestTooLarge limit))
  /-- The whole reply is out. -/
  | replied {got : Bytes} {e : Nat} {leftover : ReceiveBuffer} :
      HeadEnds got e → e ≤ limit → leftover.toList = got.drop e →
      Ends limit ⟨got, none, (negotiate (got.take e)).reply, true, false⟩
        ((negotiate (got.take e)).outcome.map fun _ => leftover)
  /-- The stream has failed before the whole reply was out. -/
  | brokenOff {got put : Bytes} {e : Nat} {broken : Bool} {fault : Fault} :
      HeadEnds got e → e ≤ limit → put <+: (negotiate (got.take e)).reply →
      (broken = false → put = (negotiate (got.take e)).reply) →
      Ends limit ⟨got, none, put, false, broken⟩ (.error (.stream fault))

/-- How many steps that need not wait an attempt takes at most. -/
def Phase.stepsLeft (limit : Nat) : Phase → Nat
  | .reading received _ => limit - received.size + (longestReply + 2)
  | .refusing unsent _ => unsent.length + 1
  | .replying unsent _ => unsent.length + 1

inductive Steps (limit : Nat) (log : Log) : Log → Progress → Prop
  | moved {log' : Log} {phase' : Phase} : Stands limit log' phase' →
      Steps limit log log' (.moved phase')
  | waiting : Steps limit log log .waiting
  | ended {log' : Log} {outcome : Except OpeningError ReceiveBuffer} : Ends limit log' outcome →
      Steps limit log log' (.ended outcome)

/-! ## Steps -/

variable {σ : Type} {limit : Nat} {log : Log} {phase : Phase} {got put unsent : Bytes}

theorem continueWriting_logged (medium : Medium σ) (stream : σ) (log : Log) (unsent : Bytes)
    (next : Bytes → Phase) (broken : Fault → Except OpeningError ReceiveBuffer) :
    let result := continueWriting medium.logged (stream, log) unsent next broken
    (result.1.1, result.2) = continueWriting medium stream unsent next broken := by
  unfold continueWriting
  dsimp only
  rw [Medium.logged_write]
  generalize medium.write stream unsent = result
  obtain ⟨rest, polled⟩ := result
  cases polled with
  | done n => cases n <;> rfl
  | failed fault => rfl
  | pending => rfl

/-- Keeping a log changes nothing. -/
theorem step_logged (medium : Medium σ) (stream : σ) (log : Log) (limit : Nat) (phase : Phase) :
    let result := phase.step medium.logged limit (stream, log)
    (result.1.1, result.2) = phase.step medium limit stream := by
  cases phase with
  | reading received searched =>
    simp only [Phase.step]
    cases inspect limit searched received.toList with
    | complete request => rfl
    | tooLarge => rfl
    | incomplete =>
      dsimp only
      rw [Medium.logged_read]
      generalize medium.read stream received.refill.room = result
      obtain ⟨rest, polled⟩ := result
      cases polled with
      | done data => cases data <;> rfl
      | failed fault => rfl
      | pending => rfl
  | refusing unsent error =>
    simp only [Phase.step]
    split
    · rfl
    · exact continueWriting_logged medium stream log unsent _ _
  | replying unsent outcome =>
    simp only [Phase.step]
    split
    · rw [Medium.logged_flush]
      generalize medium.flush stream = result
      obtain ⟨rest, polled⟩ := result
      cases polled <;> rfl
    · exact continueWriting_logged medium stream log unsent _ _

/-- Octets that a stream takes are written once. -/
theorem continueWriting_moved {medium : Medium σ} {stream rest : σ} {next : Bytes → Phase}
    {broken : Fault → Except OpeningError ReceiveBuffer} {phase' : Phase}
    (h : continueWriting medium stream unsent next broken = (rest, .moved phase')) :
    ∃ n, phase' = next (unsent.drop (n + 1)) := by
  unfold continueWriting at h
  generalize medium.write stream unsent = result at h
  obtain ⟨rest', polled⟩ := result
  cases polled with
  | done n =>
    cases n with
    | zero => cases h
    | succ n =>
      cases h
      exact ⟨n, rfl⟩
  | failed fault => cases h
  | pending => cases h

/-- Whatever a stream does, a step that need not wait brings an attempt nearer to its end. -/
theorem Phase.stepsLeft_lt {medium : Medium σ} {stream rest : σ} {phase' : Phase}
    (h : phase.step medium limit stream = (rest, .moved phase')) :
    phase'.stepsLeft limit < phase.stepsLeft limit := by
  have hless {octets : Bytes} (hne : ¬ octets.isEmpty = true) (n : Nat) :
      (octets.drop (n + 1)).length + 1 < octets.length + 1 := by
    have hpos := List.length_pos_iff.mpr fun hnil => hne (List.isEmpty_iff.mpr hnil)
    rw [List.length_drop]
    omega
  cases phase with
  | reading received searched =>
    simp only [step] at h
    split at h
    · rename_i request _
      cases h
      have hreply := length_reply request.head
      simp only [stepsLeft]
      omega
    · cases h
      have hreply : (Bytes.ofString badRequestReply).length ≤ longestReply := by decide +kernel
      show (Bytes.ofString badRequestReply).length + 1 < _
      simp only [stepsLeft]
      omega
    · rename_i hincomplete
      -- The request is too long as soon as the limit is reached.
      have hshort : received.toList.length < limit := by
        unfold inspect at hincomplete
        split at hincomplete
        · split at hincomplete <;> cases hincomplete
        · split at hincomplete
          · cases hincomplete
          · omega
      generalize medium.read stream received.refill.room = result at h
      obtain ⟨rest', polled⟩ := result
      cases polled with
      | done data =>
        cases data with
        | nil => cases h
        | cons b data =>
          cases h
          simp only [stepsLeft, ReceiveBuffer.size_eq_length, ReceiveBuffer.toList_append,
            ReceiveBuffer.toList_refill, List.length_append, List.length_cons]
          omega
      | failed fault => cases h
      | pending => cases h
  | refusing unsent error =>
    simp only [step] at h
    split at h
    · cases h
    · rename_i hne
      obtain ⟨n, rfl⟩ := continueWriting_moved h
      exact hless hne n
  | replying unsent outcome =>
    simp only [step] at h
    split at h
    · generalize medium.flush stream = result at h
      obtain ⟨rest', polled⟩ := result
      cases polled <;> cases h
    · rename_i hne
      obtain ⟨n, rfl⟩ := continueWriting_moved h
      exact hless hne n

/-- A step that writes on, in a phase in which a reply is written. -/
theorem steps_writing (medium : Medium σ) (stream : σ) {reply : Bytes} {next : Bytes → Phase}
    {broken : Fault → Except OpeningError ReceiveBuffer}
    (hreply : put ++ unsent = reply)
    (hstands : ∀ put unsent, put ++ unsent = reply →
      Stands limit ⟨got, none, put, false, false⟩ (next unsent))
    (hbroken : ∀ fault, put <+: reply → Ends limit ⟨got, none, put, false, true⟩ (broken fault)) :
    let log : Log := ⟨got, none, put, false, false⟩
    let result := continueWriting medium.logged (stream, log) unsent next broken
    Steps limit log result.1.2 result.2 := by
  unfold continueWriting
  dsimp only
  rw [Medium.logged_write]
  have hput : put <+: reply := ⟨unsent, hreply⟩
  generalize medium.write stream unsent = result
  obtain ⟨rest, polled⟩ := result
  cases polled with
  | done n =>
    cases n with
    | zero => exact .ended (hbroken .writeZero hput)
    | succ n =>
      refine .moved (hstands _ _ ?_)
      rw [List.append_assoc, List.take_append_drop, hreply]
  | failed fault => exact .ended (hbroken fault hput)
  | pending => exact .waiting

/-- A step of an attempt that reads. -/
theorem steps_reading (medium : Medium σ) (stream : σ) {received : ReceiveBuffer} {searched : Nat}
    (hs : Searched received.toList searched) :
    let log : Log := ⟨received.toList, none, [], false, false⟩
    let phase : Phase := .reading received searched
    let result := phase.step medium.logged limit (stream, log)
    Steps limit log result.1.2 result.2 := by
  simp only [Phase.step]
  have hinspects := inspects limit hs
  generalize inspect limit searched received.toList = verdict at hinspects ⊢
  cases hinspects with
  | @fits e hends hfits =>
    have hlength : (received.toList.take e).length = e :=
      List.length_take_of_le hends.le_length
    refine .moved (.replying hends hfits ?_ ?_)
    · rw [ReceiveBuffer.toList_split_snd, hlength]
    · rw [List.nil_append]
  | exceeds hlate hlong => exact .moved (.refusing hlate hlong rfl)
  | incomplete hnone hshort =>
    dsimp only
    rw [Medium.logged_read]
    generalize medium.read stream received.refill.room = result
    obtain ⟨rest, polled⟩ := result
    cases polled with
    | done data =>
      cases data with
      | nil => exact .ended (.unread hnone hshort)
      | cons b data =>
        have hlist : (received.refill.append (b :: data)).toList = received.toList ++ b :: data := by
          rw [ReceiveBuffer.toList_append, ReceiveBuffer.toList_refill]
        have hnext := searched_searchedIn hnone (b :: data)
        rw [← hlist] at hnext
        have hstands : Stands limit _ _ := .reading hnext
        rw [hlist] at hstands
        refine .moved ?_
        rwa [ReceiveBuffer.toList_refill]
    | failed fault => exact .ended (.unread hnone hshort)
    | pending => exact .waiting

theorem steps (medium : Medium σ) (stream : σ) (h : Stands limit log phase) :
    let result := phase.step medium.logged limit (stream, log)
    Steps limit log result.1.2 result.2 := by
  cases h with
  | reading hs => exact steps_reading medium stream hs
  | @refusing got put unsent hlate hlong hreply =>
    simp only [Phase.step]
    split
    · rename_i hempty
      obtain rfl := List.isEmpty_iff.mp hempty
      rw [List.append_nil] at hreply
      exact .ended (.tooLong hlate hlong ⟨[], by rw [List.append_nil, hreply]⟩ fun _ => hreply)
    · exact steps_writing medium stream hreply (fun _ _ hreply => .refusing hlate hlong hreply)
        fun _ hput => .tooLong hlate hlong hput nofun
  | @replying got put unsent e leftover hends hfits hleftover hreply =>
    simp only [Phase.step]
    split
    · rename_i hempty
      obtain rfl := List.isEmpty_iff.mp hempty
      rw [List.append_nil] at hreply
      rw [Medium.logged_flush]
      generalize medium.flush stream = result
      obtain ⟨rest, polled⟩ := result
      cases polled with
      | done => exact .ended (hreply ▸ .replied hends hfits hleftover)
      | failed fault =>
        exact .ended (.brokenOff hends hfits ⟨[], by rw [List.append_nil, hreply]⟩ fun _ => hreply)
      | pending => exact .waiting
    · exact steps_writing medium stream hreply
        (fun _ _ hreply => .replying hends hfits hleftover hreply)
        fun _ hput => .brokenOff hends hfits hput nofun

end Opening

end WebSocket
