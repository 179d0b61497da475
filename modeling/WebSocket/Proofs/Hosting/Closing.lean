import WebSocket.Proofs.Hosting.Incoming
import WebSocket.Proofs.Session.LastWords

/-!
# The closing handshake

A host answers the last words of a client with one Close frame.  After that it takes no notice of
what the client says, and whatever the application sends is too late: no octet follows the Close
frame on the stream, and when it has been written the connection closes (`Scene.parts_with`).
-/

namespace WebSocket

namespace Scene

/-- What the application is told of a connection. -/
def events (σ : Scene) (limit : Nat) (id : ConnectionId) : List Event :=
  WebSocket.delivered (effectsOn id ((Engine.new limit).run σ.handled).2)

/-- Nothing behind the last words of a client is taken notice of: the application is told of the
messages before them alone, and the decoder and the input stay as they were right after them. -/
structure Ignores (σ : Scene) (limit : Nat) (id : ConnectionId) (words : LastWords) : Prop where
  told : σ.events limit id = .newConnection :: (words.messages.map .message ++
    if isOpen (σ.host.engine.table.find? id) then [] else [.disconnect])
  stays : ∀ c, σ.host.engine.table.find? id = some c →
    c.decoder = words.decoder ∧ c.input.toList = words.behind

variable {σ : Scene} {limit : Nat} {s : Course} {id : ConnectionId} {transport : Transport}
  {words : LastWords}

theorem Follows.ignores (h : σ.Follows limit s) (hheard : s.HasHeard limit id words) :
    σ.Ignores limit id words := by
  obtain ⟨_, _, _, l, hl, hs, hheard⟩ := hheard
  constructor
  · rw [events, h.reached.run_eq, hs.delivered_eq hl.confined, h.engine, hs.found]
    exact hheard.told
  · intro c hc
    rw [h.engine, hs.found] at hc
    exact hheard.stays c hc

/-- Last words that were heard stay so, however long the scene runs. -/
theorem Truthful.hasHeard (h : σ.Truthful limit s)
    (hstream : streamOf? σ.handled id = some transport) (hheard : s.HasHeard limit id words)
    (moves : List Move) : ∃ s', (σ.run moves).Truthful limit s' ∧ s'.HasHeard limit id words := by
  have hstep : ∀ mails s mail, Reached limit mails s → s.Admits mail →
      streamOf? mails id = some transport ∧ s.HasHeard limit id words →
      streamOf? (mails ++ [mail]) id = some transport ∧
        (s.after mail).HasHeard limit id words := by
    rintro mails s mail hreached hadmits ⟨hstream, hheard⟩
    exact ⟨(hreached.step_of_known mail hstream).1,
      hreached.hasHeard_after hadmits hstream hheard⟩
  obtain ⟨s', h', -, hheard'⟩ := h.keeps
    (P := fun mails s => streamOf? mails id = some transport ∧ s.HasHeard limit id words)
    ⟨hstream, hheard⟩ hstep moves
  exact ⟨s', h', hheard'⟩

/-- The good end of the write of a Close frame closes the connection. -/
theorem Follows.shut_after_farewell (h : σ.Follows limit s)
    (hstream : streamOf? σ.handled id = some transport)
    (hclose : 0 < WebSocket.closes (framesOf (begun (effectsOn id s.effects)))) {writer : Transport}
    {rest : Host} (hmail : σ.host.takeMail? =
      some (.completion (.write id writer (.ok ())), rest)) :
    isOpen ((σ.move .engine).host.engine.table.find? id) = false := by
  have hdone {engine : Engine} (hdone : engine.isDone = true) :
      isOpen (engine.table.find? id) = false := by
    rw [Engine.find?_of_isDone hdone]
    rfl
  show isOpen (σ.engineStep.host.engine.table.find? id) = false
  unfold engineStep
  cases hrunning : σ.host.running with
  | false => exact hdone (h.finished hrunning)
  | true =>
    cases hend : σ.host.engine.isDone with
    | true =>
      show isOpen (σ.host.retire.engine.table.find? id) = false
      rw [σ.host.unfelt_retire.toQuiet.engine]
      exact hdone hend
    | false =>
      have ht := Host.takes_takeMail hmail
      have hafter := h.handles hrunning ht
      rw [hmail]
      show isOpen (((σ.take _ rest).become (rest.handle _)).host.engine.table.find? id) = false
      rw [hafter.engine]
      exact h.reached.shut_after_farewell (h.admits ht) hstream hclose

/-- How a host parts with the client of a connection, which has said some octets so far. -/
structure PartsWith (σ : Scene) (limit : Nat) (id : ConnectionId) (transport : Transport)
    (octets : Bytes) : Prop where
  /-- No more than one Close frame joins the queue. -/
  once : closes (σ.accepted limit id) ≤ 1
  /-- It answers the first Close frame of the client with the first two octets of its payload, and
  from then on nothing that the client says is taken notice of. -/
  answers : ∀ frame ∈ σ.accepted limit id, frame.opcode = .close →
    ∃ words : LastWords, words.SaidIn limit octets ∧
      frame.payload =
        (if 2 ≤ words.close.payload.length then words.close.payload.take 2 else []) ∧
      ∀ moves, (σ.run moves).Ignores limit id words
  /-- While the connection is open, it has answered the first Close frame if the client has said
  one. -/
  answered : isOpen (σ.host.engine.table.find? id) = true →
    ∀ words : LastWords, words.SaidIn limit octets →
      .closeReply words.close.payload ∈ σ.accepted limit id
  /-- What has gone out since the stream was let in ends with the Close frame at the latest. -/
  last : ∀ earlier close later, σ.accepted limit id = earlier ++ close :: later →
    close.opcode = .close →
    ∃ bytes, σ.sent transport = σ.before transport ++ bytes ∧ bytes <+: wires (earlier ++ [close])
  /-- When its write has begun, the next good end of a write is that of the Close frame, and it
  closes the connection. -/
  ends : 0 < closes (σ.started limit id) → ∀ writer rest,
    σ.host.takeMail? = some (.completion (.write id writer (.ok ())), rest) →
    isOpen ((σ.move .engine).host.engine.table.find? id) = false

/-- Whatever the settings, the application, the sizes of the pipes and the order of moves: a host
and its clients part with a closing handshake, if the client asks for it. -/
theorem parts_with (settings : Settings) (application : Application) (address : String)
    (moves : List Move) {leftover : ReceiveBuffer} {later : List Mail}
    (h : LetIn ((start settings application address).run moves).handled id transport leftover
      later) :
    ((start settings application address).run moves).PartsWith settings.payloadLimit id transport
      (heard leftover (errandsFor id later)) := by
  obtain ⟨s, htruthful⟩ := (truthful_start settings application address).run moves
  generalize (start settings application address).run moves = σ at h htruthful
  have hfollows := htruthful.faithful.follows
  have hconveyed := htruthful.conveyed
  have hstream := h.streamOf?_eq
  have haccepted := hfollows.accepted_eq id
  obtain ⟨bytes, hsends⟩ := htruthful.faithful.sends id transport hstream
  exact {
    once := by
      rw [haccepted]
      exact hconveyed.closes_joined_le h
    answers := by
      intro frame hmem hclose
      rw [haccepted] at hmem
      obtain ⟨words, hsaid, rfl, hheard⟩ := hconveyed.hears h hmem hclose
      refine ⟨words, hsaid, rfl, fun more => ?_⟩
      obtain ⟨s', htruthful', hheard'⟩ := htruthful.hasHeard hstream hheard more
      exact htruthful'.faithful.follows.ignores hheard'
    answered := by
      intro hopen words hsaid
      rw [hfollows.engine] at hopen
      rw [haccepted]
      exact hconveyed.hears_of_open h hopen hsaid
    last := by
      intro earlier close later haccept hclose
      rw [haccepted] at haccept
      refine ⟨bytes, hsends.sent, hsends.begun.trans (wires_isPrefix ?_)⟩
      exact (hfollows.reached.begins hstream).within haccept hclose
    ends := by
      intro hclose writer rest hmail
      rw [hfollows.started_eq] at hclose
      exact hfollows.shut_after_farewell hstream hclose hmail }

/-- A client of a narrow stream says goodbye, and more after that, while the application answers its
message: the Close frame is the last frame that goes out, and the connection is closed. -/
theorem parts_with_talker :
    let said : Bytes := [129, 129, 0, 0, 0, 0, 97, 136, 131, 0, 0, 0, 0, 3, 232, 120, 129]
    let moves : List Move := [.connect 3 said, .engine,
      .request (.send ⟨1⟩ (.text "late") none), .engine, .job (.writer ⟨1⟩), .read 0 none,
      .job (.writer ⟨1⟩), .engine, .read 0 none]
    let σ := (start Settings.standard (fun _ _ _ => ⟨[], none⟩) "").run moves
    ∃ leftover later, LetIn σ.handled ⟨1⟩ 0 leftover later ∧
      σ.PartsWith Settings.standard.payloadLimit ⟨1⟩ 0 (heard leftover (errandsFor ⟨1⟩ later)) ∧
      σ.accepted Settings.standard.payloadLimit ⟨1⟩ =
        [⟨.close, [3, 232]⟩, ⟨.text, Bytes.ofString "late"⟩] ∧
      σ.sent 0 = [136, 2, 3, 232] ∧ isOpen (σ.host.engine.table.find? ⟨1⟩) = false := by
  intro said moves σ
  have hstream : streamOf? σ.handled ⟨1⟩ = some 0 := by decide +kernel
  obtain ⟨leftover, later, hin⟩ := exists_letIn hstream
  exact ⟨leftover, later, hin, parts_with Settings.standard _ "" moves hin, by decide +kernel,
    by decide +kernel, by decide +kernel⟩

end Scene

end WebSocket
