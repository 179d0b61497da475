import WebSocket.Proofs.Session.Attention
import WebSocket.Proofs.Session.Posting
import WebSocket.Proofs.Wire.RoundTrip

/-!
# Clients that send messages only

A client that sends messages, each in a frame of its own under a key of its own, neither ends its
session nor asks for an answer.  Wherever its octets are cut, the speech before the cut are the
first of the messages:

    octets <+: encodings messages → speech limit octets = ⟨frames, .pending⟩      (speech_of_isPrefix)

So as long as nothing else ends the session, the connection stays open, the application is told of
these messages, and the engine queues what is sent to the connection and nothing of its own
(`Conveyed.converses`).
-/

namespace WebSocket

namespace Message

def masked (message : Message) (key : MaskKey) : MaskedFrame :=
  ⟨message.frame.opcode, message.frame.payload, key⟩

/-- Whether a server with a given payload limit has to accept the message. -/
structure Fits (limit : Nat) (message : Message) : Prop where
  within : message.octets.length ≤ max limit 125
  addressable : message.octets.length < 2 ^ 63

variable {limit : Nat} {message : Message}

theorem payload_frame (message : Message) : message.frame.payload = message.octets := by
  cases message <;> rfl

theorem Fits.masked (h : message.Fits limit) (key : MaskKey) : (message.masked key).Fits limit where
  supported := by cases message <;> simp [Message.masked, frame, ServerFrame.text,
    ServerFrame.binary, Opcode.supported]
  within := by
    show message.frame.payload.length ≤ _
    rw [payload_frame]
    exact h.within
  control hcontrol := by
    cases message <;> cases hcontrol
  addressable := by
    show message.frame.payload.length < _
    rw [payload_frame]
    exact h.addressable

/-- What a server makes of the frame of a message. -/
theorem message?_masked (message : Message) (key : MaskKey) :
    (message.masked key).received.message? = some message ∧
      (message.masked key).received.pong? = none ∧ (message.masked key).received.goesOn := by
  cases message with
  | text s =>
    have htext : InboundFrame.message? ⟨.text, Bytes.ofString s⟩ = some (.text s) := by
      rw [InboundFrame.message?, Bytes.toString?_ofString]
      rfl
    have hvalid : InboundFrame.isViolation ⟨.text, Bytes.ofString s⟩ = false := by
      rw [InboundFrame.isViolation, Bytes.toString?_ofString]
      rfl
    have hclose : Opcode.text ≠ .close := by decide
    exact ⟨htext, rfl, hclose, hvalid⟩
  | binary octets =>
    have hclose : Opcode.binary ≠ .close := by decide
    exact ⟨rfl, rfl, hclose, rfl⟩

end Message

def maskedAll (sent : List (Message × MaskKey)) : List MaskedFrame :=
  sent.map fun (message, key) => message.masked key

section

variable {limit : Nat} {sent : List (Message × MaskKey)}

theorem fits_maskedAll (h : ∀ one ∈ sent, one.1.Fits limit) :
    ∀ frame ∈ maskedAll sent, frame.Fits limit := by
  intro frame hmem
  obtain ⟨one, hone, rfl⟩ := List.mem_map.mp hmem
  exact (h one hone).masked one.2

/-- A server makes the messages of the frames again. -/
theorem messages_maskedAll (sent : List (Message × MaskKey)) :
    ((maskedAll sent).map (·.received)).filterMap (·.message?) = sent.map (·.1) := by
  rw [maskedAll, List.map_map, List.filterMap_map, ← List.filterMap_eq_map]
  exact List.filterMap_congr fun one _ => (one.1.message?_masked one.2).1

/-- The speech in the first of the frames. -/
theorem speech_of_frames {frames : List InboundFrame}
    (h : frames <+: (maskedAll sent).map (·.received)) :
    Speech.of frames none = ⟨frames, .pending⟩ ∧
      (Speech.mk frames .pending).messages <+: sent.map (·.1) ∧
      (Speech.mk frames .pending).answers = [] := by
  have hall : ∀ frame ∈ frames, ∃ message key, frame = (Message.masked message key).received := by
    intro frame hmem
    obtain ⟨masked, hmasked, rfl⟩ := List.mem_map.mp (h.subset hmem)
    obtain ⟨one, -, rfl⟩ := List.mem_map.mp hmasked
    exact ⟨one.1, one.2, rfl⟩
  refine ⟨?_, ?_, ?_⟩
  · have hgoes : ∀ frame ∈ frames, frame.goesOn := by
      intro frame hmem
      obtain ⟨message, key, rfl⟩ := hall frame hmem
      exact (message.message?_masked key).2.2
    have hspeech := Speech.of_append hgoes [] none
    rw [List.append_nil] at hspeech
    rw [hspeech, Speech.after, Speech.of, List.append_nil]
  · rw [← messages_maskedAll]
    exact h.filterMap _
  · rw [Speech.answers, List.append_nil, List.filterMap_eq_nil_iff]
    intro frame hmem
    obtain ⟨message, key, rfl⟩ := hall frame hmem
    exact (message.message?_masked key).2.1

/-- Wherever the octets of some messages are cut, the speech before the cut has not ended, and its
messages are the first of them. -/
theorem speech_of_isPrefix (h : ∀ one ∈ sent, one.1.Fits limit) {octets : Bytes}
    (hcut : octets <+: MaskedFrame.encodings (maskedAll sent)) :
    (speech limit octets).ending = .pending ∧ (speech limit octets).answers = [] ∧
      (speech limit octets).messages <+: sent.map (·.1) := by
  obtain ⟨herror, hfirst⟩ := MaskedFrame.drain_of_isPrefix (fits_maskedAll h) hcut
  obtain ⟨hspeech, hmessages, hanswers⟩ := speech_of_frames hfirst
  rw [speech, Drained.speech, herror, hspeech]
  exact ⟨rfl, hanswers, hmessages⟩

theorem speech_encodings (h : ∀ one ∈ sent, one.1.Fits limit) :
    (speech limit (MaskedFrame.encodings (maskedAll sent))).messages = sent.map (·.1) := by
  have hdrain := MaskedFrame.drain_encodings (fits_maskedAll h)
  obtain ⟨hspeech, -, -⟩ := speech_of_frames (List.prefix_refl ((maskedAll sent).map (·.received)))
  rw [speech, Drained.speech, hdrain, hspeech]
  exact messages_maskedAll sent

end

/-- A connection whose speech has not ended is open. -/
theorem Connection.Stands.isOpen_of_pending {decoder : Decoder} {octets : Bytes}
    {transport : Transport} {now : Option Connection} {operations : List Operation}
    {speech : Speech} (h : Connection.Stands decoder octets transport now operations speech)
    (hpending : speech.ending = .pending) : isOpen now = true := by
  cases h with
  | listens hopen =>
    rw [isOpen_some, hopen]
    rfl
  | leaves => cases hpending
  | broken => cases hpending

/-! ## What is queued -/

/-- Frames none of which is the engine's own are all messages. -/
theorem carriers_of_replies {frames : List ServerFrame} (h : replies frames = []) :
    carriers frames = frames := by
  rw [replies, List.filter_eq_nil_iff] at h
  rw [carriers, List.filter_eq_self]
  intro frame hmem
  have hmessage := h frame hmem
  rwa [Bool.not_eq_true, Bool.not_eq_false'] at hmessage

theorem frames_errandsFor (id : ConnectionId) (mails : List Mail) :
    (errandsFor id mails).filterMap (·.frame?) = sendsTo id (requestsOf mails) := by
  induction mails with
  | nil => rfl
  | cons mail mails ih =>
    rw [← List.singleton_append, requestsOf_append, sendsTo_append, mail.sendsTo_eq, ← ih,
      errandsFor, List.filterMap_append, List.filterMap_append]
    congr 1
    cases herrand : mail.errandFor? id with
    | none => simp [herrand]
    | some errand => cases hframe : errand.frame? <;> simp [herrand, hframe]

/-- An open connection has taken every message that was sent to it. -/
theorem LivedBy.carriers_eq {id : ConnectionId} {transport : Transport} {peer : Option SocketAddress}
    {leftover : ReceiveBuffer} {limit : Nat} {errands : List Errand} {l : Life}
    (h : LivedBy (.new id transport peer leftover limit) errands l) (hopen : isOpen l.now = true) :
    carriers (joined l.effects) = errands.filterMap (·.frame?) := by
  induction h with
  | begin => exact Connection.carriers_opened _
  | @errand errands l errand h _ _ ih =>
    cases hbefore : isOpen l.now with
    | false =>
      obtain ⟨hshut, -⟩ := h.lived.after_shut hbefore errand
      exact absurd (hopen.symm.trans hshut) (by decide)
    | true =>
      obtain ⟨c, hnow, hclosed⟩ := exists_of_isOpen hbefore
      rw [Life.after_of_now hnow, joined_append, carriers_append, ih hbefore,
        Connection.carriers_attend hclosed, List.filterMap_append]
      cases hframe : errand.frame? <;> simp [hframe]

/-- How a session stands whose client has sent messages only: `heard` is what the engine has heard
of them, and `later` is the mail since the session began. -/
structure Course.Converses (s : Course) (id : ConnectionId) (sent : List (Message × MaskKey))
    (heard : Bytes) (later : List Mail) : Prop where
  lasts : isOpen (s.engine.table.find? id) = true
  /-- The application has been told of the first messages. -/
  told : ∃ first, first <+: sent.map (·.1) ∧
    delivered (effectsOn id s.effects) = .newConnection :: first.map .message ∧
    (heard = MaskedFrame.encodings (maskedAll sent) → first = sent.map (·.1))
  /-- The engine has queued what was sent to the connection. -/
  queued : joined (effectsOn id s.effects) = sendsTo id (requestsOf later)

/-- As long as nothing ends the session, the application is told of the messages of a client that
sends nothing else, and its client is sent what the application asks for. -/
theorem Conveyed.converses {limit : Nat} {mails later : List Mail} {s : Course} {id : ConnectionId}
    {transport : Transport} {leftover : ReceiveBuffer} {sent : List (Message × MaskKey)}
    (h : Conveyed limit mails s) (hin : LetIn mails id transport leftover later)
    (hspared : ∀ errand ∈ errandsFor id later, errand.Spares)
    (hfit : ∀ one ∈ sent, one.1.Fits limit)
    (hcut : heard leftover (errandsFor id later) <+: MaskedFrame.encodings (maskedAll sent)) :
    s.Converses id sent (heard leftover (errandsFor id later)) later := by
  obtain ⟨peer, l, hl, hs⟩ := h.livedBy hin
  have hconfined := hl.lived.confined
  obtain ⟨hpending, hanswers, hfirst⟩ := speech_of_isPrefix hfit hcut
  rcases hl.attends with ⟨htold, hown, hstands, -⟩ | ⟨-, -, errand, hmem, hcause⟩
  · have hopen := hstands.isOpen_of_pending hpending
    rw [hopen] at htold
    rw [hanswers] at hown
    refine ⟨by rw [hs.found]; exact hopen, ⟨_, hfirst, ?_, fun hall => ?_⟩, ?_⟩
    · rw [hs.delivered_eq hconfined, htold, if_pos rfl, List.append_nil]
    · rw [hall]
      exact speech_encodings hfit
    · rw [hs.joined_eq hconfined, ← carriers_of_replies hown, hl.carriers_eq hopen,
        frames_errandsFor]
  · exact absurd (hspared errand hmem) hcause

end WebSocket
