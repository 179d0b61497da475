import WebSocket.Proofs.Wire.Framing
import WebSocket.Session.Event

/-!
# What a client says

The octets of a client are a speech: the frames up to its end, and the end, which is a Close frame
or a violation, unless there is none yet.  A violation is an error of the decoder, or a text message
that is not UTF-8.  What comes after the end is no part of the speech:

    (speech limit octets).ending ≠ .pending →
      speech limit (octets ++ more) = speech limit octets                      (speech_append)

The speech settles which messages a client has sent and which frames it is answered with.
-/

namespace WebSocket

namespace InboundFrame

/-- Whether the frame breaks a rule although it was decoded: a text that is not UTF-8. -/
def isViolation (frame : InboundFrame) : Bool :=
  frame.opcode == .text && frame.payload.toString?.isNone

def message? (frame : InboundFrame) : Option Message :=
  match frame.opcode with
  | .text => frame.payload.toString?.map .text
  | .binary => some (.binary frame.payload)
  | _ => none

def pong? (frame : InboundFrame) : Option ServerFrame :=
  match frame.opcode with
  | .ping => some ⟨.pong, frame.payload⟩
  | _ => none

theorem opcode_of_pong? {frame : InboundFrame} {pong : ServerFrame} (h : frame.pong? = some pong) :
    pong.opcode = .pong := by
  unfold pong? at h
  split at h <;> cases h
  rfl

end InboundFrame

/-- How a speech ends. -/
inductive Ending where
  /-- It has not ended yet. -/
  | pending
  /-- With a Close frame. -/
  | farewell (payload : Bytes)
  /-- With a violation. -/
  | violation
  deriving DecidableEq

/-- The frames of a client up to the end of its speech, and the end. -/
structure Speech where
  frames : List InboundFrame
  ending : Ending
  deriving DecidableEq

namespace Speech

def messages (speech : Speech) : List Message := speech.frames.filterMap (·.message?)

/-- The frames with which a speech is answered: one Pong frame for each Ping frame, and a Close
frame for a Close frame. -/
def answers (speech : Speech) : List ServerFrame :=
  speech.frames.filterMap (·.pong?) ++
    match speech.ending with
    | .farewell payload => [.closeReply payload]
    | _ => []

/-- The speech with more frames in front. -/
def after (frames : List InboundFrame) (later : Speech) : Speech :=
  ⟨frames ++ later.frames, later.ending⟩

/-- The speech in frames that were decoded, and in the error after them if there is one. -/
def of : List InboundFrame → Option FrameError → Speech
  | [], none => ⟨[], .pending⟩
  | [], some _ => ⟨[], .violation⟩
  | frame :: later, error =>
    if frame.opcode = .close then ⟨[], .farewell frame.payload⟩
    else if frame.isViolation then ⟨[], .violation⟩
    else (of later error).after [frame]

end Speech

def Drained.speech (drained : Drained) : Speech := .of drained.frames drained.error

/-- The speech in the octets of a client, for payloads of up to `limit` octets. -/
def speech (limit : Nat) (octets : Bytes) : Speech := ((Decoder.new limit).drain octets).speech

/-! ## Speeches that go on -/

/-- Whether a speech goes on after the frame. -/
def InboundFrame.goesOn (frame : InboundFrame) : Prop :=
  frame.opcode ≠ .close ∧ frame.isViolation = false

namespace Speech

variable {frames later : List InboundFrame} {frame : InboundFrame} {error : Option FrameError}

@[simp] theorem messages_after (frames : List InboundFrame) (later : Speech) :
    (later.after frames).messages = frames.filterMap (·.message?) ++ later.messages :=
  List.filterMap_append

@[simp] theorem answers_after (frames : List InboundFrame) (later : Speech) :
    (later.after frames).answers = frames.filterMap (·.pong?) ++ later.answers := by
  simp only [answers, after, List.filterMap_append, List.append_assoc]

theorem after_after (frames more : List InboundFrame) (later : Speech) :
    (later.after more).after frames = later.after (frames ++ more) := by
  simp only [after, List.append_assoc]

theorem of_close (h : frame.opcode = .close) (later : List InboundFrame)
    (error : Option FrameError) : of (frame :: later) error = ⟨[], .farewell frame.payload⟩ := by
  rw [of, if_pos h]

theorem of_violation (hclose : frame.opcode ≠ .close) (h : frame.isViolation = true)
    (later : List InboundFrame) (error : Option FrameError) :
    of (frame :: later) error = ⟨[], .violation⟩ := by
  rw [of, if_neg hclose, if_pos h]

theorem of_goesOn (h : frame.goesOn) (later : List InboundFrame) (error : Option FrameError) :
    of (frame :: later) error = (of later error).after [frame] := by
  rw [of, if_neg h.1, if_neg (by rw [h.2]; decide)]

/-- Frames after which a speech goes on come first in it. -/
theorem of_append (h : ∀ frame ∈ frames, frame.goesOn) (later : List InboundFrame)
    (error : Option FrameError) : of (frames ++ later) error = (of later error).after frames := by
  induction frames with
  | nil => rfl
  | cons frame frames ih =>
    rw [List.cons_append, of_goesOn (h frame List.mem_cons_self),
      ih fun frame hmem => h frame (List.mem_cons_of_mem _ hmem), after_after]
    rfl

/-- A speech goes on after each of its frames. -/
theorem goesOn_of_mem (h : frame ∈ (of frames error).frames) : frame.goesOn := by
  induction frames with
  | nil => cases error <;> cases h
  | cons first frames ih =>
    rw [of] at h
    split at h
    · cases h
    · rename_i hclose
      split at h
      · cases h
      · rename_i hviolation
        rcases List.mem_cons.mp h with rfl | hmem
        · exact ⟨hclose, by simpa using hviolation⟩
        · exact ih hmem

/-- A speech that has not ended goes on after all that was decoded. -/
theorem of_pending (h : (of frames error).ending = .pending) :
    of frames error = ⟨frames, .pending⟩ ∧ error = none ∧ ∀ frame ∈ frames, frame.goesOn := by
  induction frames with
  | nil =>
    cases error with
    | some error => cases h
    | none => exact ⟨rfl, rfl, nofun⟩
  | cons frame frames ih =>
    rw [of] at h
    split at h
    · cases h
    · rename_i hclose
      split at h
      · cases h
      · rename_i hviolation
        have hframe : frame.goesOn := ⟨hclose, by simpa using hviolation⟩
        obtain ⟨hspeech, herror, hall⟩ := ih h
        refine ⟨?_, herror, List.forall_mem_cons.mpr ⟨hframe, hall⟩⟩
        rw [of_goesOn hframe, hspeech]
        rfl

/-- A speech that has ended is told by the frames that were decoded. -/
theorem of_ended (h : (of frames none).ending ≠ .pending) (later : List InboundFrame)
    (error : Option FrameError) : of (frames ++ later) error = of frames none := by
  induction frames with
  | nil => exact absurd rfl h
  | cons frame frames ih =>
    rw [List.cons_append, of, of]
    rw [of] at h
    split
    · rfl
    · rename_i hclose
      rw [if_neg hclose] at h
      split
      · rfl
      · rename_i hviolation
        rw [if_neg hviolation] at h
        rw [ih h]

end Speech

/-- A speech that has ended stays as it is. -/
theorem Drained.speech_resume {drained : Drained} (h : drained.speech.ending ≠ .pending)
    (more : Bytes) : (drained.resume more).speech = drained.speech := by
  obtain ⟨frames, error, decoder, rest⟩ := drained
  cases error with
  | some error => rfl
  | none => exact Speech.of_ended h _ _

/-- What comes after the end of a speech is no part of it. -/
theorem speech_append {limit : Nat} {octets : Bytes} (h : (speech limit octets).ending ≠ .pending)
    (more : Bytes) : speech limit (octets ++ more) = speech limit octets := by
  rw [speech, Decoder.drain_append]
  exact Drained.speech_resume h more

/-- A speech that has not ended goes on in what was not decoded yet. -/
theorem speech_append_of_pending {limit : Nat} {octets rest : Bytes} {frames : List InboundFrame}
    {later : Decoder} (hdrain : (Decoder.new limit).drain octets = ⟨frames, none, later, rest⟩)
    (h : (speech limit octets).ending = .pending) (more : Bytes) :
    speech limit (octets ++ more) = (later.drain (rest ++ more)).speech.after frames := by
  rw [speech, hdrain] at h
  obtain ⟨-, -, hgoes⟩ := Speech.of_pending h
  rw [speech, Decoder.drain_append, hdrain]
  exact Speech.of_append hgoes _ _

end WebSocket
