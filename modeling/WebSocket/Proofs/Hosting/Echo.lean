import WebSocket.Proofs.Hosting.Saying
import WebSocket.Proofs.Peer.Splitting
import WebSocket.Proofs.Session.Conversation

/-!
# Echoes

An application echoes to a connection when it sends every message of the connection back to it, and
nothing else there (`Application.Echoes`).  A client that sends messages only then gets them back:
what it has received are at all times the first of its messages, in their order and unchanged, and
once everything has come to rest it has received all of them (`Scene.echoed`).
-/

namespace WebSocket

/-! ## Applications that echo -/

def Event.frame? : Event → Option ServerFrame
  | .message m => some m.frame
  | .newConnection | .disconnect => none

/-- Whether an application sends every message of a connection back to it and nothing else there,
whatever it does besides. -/
def Application.Echoes (application : Application) (id : ConnectionId) : Prop :=
  ∀ history other event,
    (application history other event).posts.filterMap (·.frameTo? id event) =
      if other = id then event.frame?.toList else []

theorem Application.Echoes.sends_eq {application : Application} {id : ConnectionId}
    (h : application.Echoes id) (history events : List (ConnectionId × Event)) :
    application.sends id history events =
      ((events.filter (·.1 = id)).map (·.2)).filterMap (·.frame?) := by
  induction events generalizing history with
  | nil => rfl
  | cons first events ih =>
    obtain ⟨other, event⟩ := first
    rw [Application.sends, h, ih]
    by_cases hid : other = id
    · cases hframe : event.frame? <;> simp [hid, hframe]
    · simp [hid]

/-- The frames in which the messages of a connection go back that the application is told of in the
course of some effects. -/
def echoes (id : ConnectionId) (effects : List Effect) : List ServerFrame :=
  (delivered (effectsOn id effects)).filterMap (·.frame?)

theorem echoes_append (id : ConnectionId) (effects more : List Effect) :
    echoes id (effects ++ more) = echoes id effects ++ echoes id more := by
  rw [echoes, effectsOn_append, delivered_append, List.filterMap_append]
  rfl

/-- What an application that echoes sends in the course of some effects. -/
theorem Application.Echoes.sends_told {application : Application} {id : ConnectionId}
    (h : application.Echoes id) (history : List (ConnectionId × Event)) (effects : List Effect) :
    application.sends id history (told effects) = echoes id effects := by
  rw [h.sends_eq, filter_told]
  rfl

/-- An echo server echoes to every connection. -/
theorem Rule.echoes_echo (id : ConnectionId) : (Rule.application Rule.echo).Echoes id := by
  intro history other event
  cases event with
  | message message =>
    have hreact : Rule.application Rule.echo history other (.message message) =
        ⟨[.forward other], none⟩ := rfl
    rw [hreact]
    by_cases hid : other = id <;> simp [Post.frameTo?, Event.frame?, hid]
  | newConnection | disconnect => simp [Rule.application, Rule.echo, Rule.applies, Event.kind,
      Rule.react, Event.frame?]

/-- A client can take the frame of a message apart. -/
theorem Message.Fits.splits {limit : Nat} {message : Message} (h : message.Fits limit) :
    message.frame.Splits where
  supported := by
    cases message <;> simp [Message.frame, ServerFrame.text, ServerFrame.binary, Opcode.supported]
  addressable := by
    rw [Message.payload_frame]
    exact h.addressable

/-- Whether a move leaves it to the application to send to a connection, and to an application that
echoes. -/
def Move.LeavesEcho (id : ConnectionId) : Move → Prop
  | .request r => r.frameTo? id = none
  | .other host => host.application.Echoes id
  | _ => True

namespace Host

/-- From one state of a host to another in which no more has happened than that something was asked
of the engine; `frames` are sent to the connection with that. -/
structure Asks (id : ConnectionId) (host host' : Host) (frames : List ServerFrame) : Prop where
  application : host'.application = host.application
  running : host'.running = host.running
  requests : ∃ asked, host'.requests.toList = host.requests.toList ++ asked ∧
    (host.running = true → sendsTo id asked = frames)

theorem Asks.of_same {host host' : Host} (id : ConnectionId)
    (happlication : host'.application = host.application)
    (hrunning : host'.running = host.running) (hrequests : host'.requests = host.requests) :
    Asks id host host' [] where
  application := happlication
  running := hrunning
  requests := ⟨[], by rw [hrequests, List.append_nil], fun _ => rfl⟩

theorem Performs.asks {host host' : Host} {effects : List Effect}
    {frames : ConnectionId → List ServerFrame} (h : host.Performs host' effects frames)
    (id : ConnectionId) : Asks id host host' (frames id) where
  application := h.application
  running := h.running
  requests := by
    obtain ⟨asked, hasked, hframes⟩ := h.requests
    exact ⟨asked, hasked, fun hrunning => hframes hrunning id⟩

theorem Unfelt.asks_nothing {host host' : Host} (h : host.Unfelt host') (id : ConnectionId) :
    Asks id host host' [] :=
  .of_same id h.application h.running h.asks

theorem asks_wakeAll (host : Host) (id : ConnectionId) (tasks : List Task) :
    Asks id host (host.wakeAll tasks) [] :=
  (host.performs_wakeAll tasks).asks id

theorem asks_jobTurn (host : Host) (id : ConnectionId) (task : Task) :
    Asks id host (host.jobTurn task) [] := by
  have hcomplete (host : Host) (completion : Completion) :
      Asks id host (host.complete completion) [] := by
    by_cases hrunning : host.running = true
    · obtain ⟨more, hmore⟩ := host.exists_complete hrunning completion
      rw [hmore]
      exact .of_same id rfl rfl rfl
    · rw [host.complete_of_not_running hrunning]
      cases broughtStream completion <;> exact .of_same id rfl rfl rfl
  unfold jobTurn
  split
  · exact .of_same id rfl rfl rfl
  · split
    · exact .of_same id rfl rfl rfl
    · rename_i job _ _ link _
      dsimp only
      generalize job.step link = outcome
      obtain ⟨link', outcome⟩ := outcome
      cases outcome with
      | inl waiting => exact .of_same id rfl rfl rfl
      | inr completion => exact { hcomplete _ completion with }

theorem asks_clientWrite (host : Host) (id : ConnectionId) (client : Transport) (data : Bytes) :
    Asks id host (host.clientWrite client data).1 [] := by
  unfold clientWrite
  split
  · exact .of_same id rfl rfl rfl
  · dsimp only
    split
    · exact .of_same id rfl rfl rfl
    · exact { asks_wakeAll (host.changeLink client _) id _ with }
    · exact .of_same id rfl rfl rfl

theorem asks_clientRead? {host host' : Host} {client : Transport} {most : Option Nat}
    {data : Bytes} {ended : Bool} (h : host.clientRead? client most = some (host', data, ended))
    (id : ConnectionId) : Asks id host host' [] := by
  obtain ⟨link, -, hread⟩ := Option.map_eq_some_iff.mp h
  cases hread
  exact { asks_wakeAll (host.changeLink client _) id _ with }

theorem application_takeMail {host rest : Host} {mail : Mail}
    (h : host.takeMail? = some (mail, rest)) : rest.application = host.application := by
  unfold takeMail? at h
  split at h
  · cases h
    rfl
  · obtain ⟨⟨request, later⟩, -, heq⟩ := Option.map_eq_some_iff.mp h
    cases heq
    rfl

end Host

namespace Scene

variable {σ : Scene} {host : Host} {limit : Nat} {s : Course} {id : ConnectionId}

/-! ## Messages that go back -/

/-- All that was asked for a connection are the echoes of its messages. -/
structure Echoing (σ : Scene) (limit : Nat) (id : ConnectionId) : Prop where
  application : σ.host.application.Echoes id
  asked : σ.host.running = true →
    sendsTo id (requestsOf σ.handled ++ σ.host.requests.toList) =
      echoes id ((Engine.new limit).run σ.handled).2
  /-- Nothing was sent to the connection before it was there. -/
  since : ∀ transport leftover later, LetIn σ.handled id transport leftover later →
    sendsTo id (requestsOf σ.handled) = sendsTo id (requestsOf later)

namespace Echoing

/-- Little may be asked of the engine meanwhile. -/
theorem asks (h : σ.Echoing limit id) (ha : Host.Asks id σ.host host []) :
    (σ.become host).Echoing limit id where
  application := by
    show host.application.Echoes id
    rw [ha.application]
    exact h.application
  asked hrunning := by
    obtain ⟨asked, hasked, hnone⟩ := ha.requests
    have hrunning' : σ.host.running = true := ha.running.symm.trans hrunning
    show sendsTo id (requestsOf σ.handled ++ host.requests.toList) = _
    rw [hasked, ← List.append_assoc, sendsTo_append, hnone hrunning', List.append_nil]
    exact h.asked hrunning'
  since := h.since

theorem unfelt (h : σ.Echoing limit id) (hu : σ.host.Unfelt host) :
    (σ.become host).Echoing limit id :=
  h.asks (hu.asks_nothing id)

/-- The application echoes the messages that it is told of with a piece of mail. -/
theorem handles (h : σ.Echoing limit id) (hf : σ.Follows limit s)
    (hrunning : σ.host.running = true) {mail : Mail} {rest : Host}
    (htake : σ.host.takeMail? = some (mail, rest)) :
    ((σ.take mail rest).become (rest.handle mail)).Echoing limit id := by
  have ht := Host.takes_takeMail htake
  have happlication := Host.application_takeMail htake
  have hasks := (rest.performs_handle mail).asks id
  have hpending : requestsOf σ.handled ++ σ.host.requests.toList =
      requestsOf (σ.handled ++ [mail]) ++ rest.requests.toList := by
    rw [ht.requests, requestsOf_append, requestsOf_singleton, List.append_assoc]
  exact {
    application := by
      show (rest.handle mail).application.Echoes id
      rw [hasks.application, happlication]
      exact h.application
    asked := by
      intro _
      obtain ⟨asked, hasked, hframes⟩ := hasks.requests
      show sendsTo id (requestsOf (σ.handled ++ [mail]) ++ (rest.handle mail).requests.toList) = _
      rw [hasked, ← List.append_assoc, ← hpending, sendsTo_append, h.asked hrunning,
        hframes (ht.running.trans hrunning), happlication, h.application.sends_told, ht.engine,
        hf.engine, hf.reached.run_eq, (hf.handles hrunning ht).reached.run_eq]
      exact (echoes_append ..).symm
    since := by
      intro transport leftover later hin
      show sendsTo id (requestsOf (σ.handled ++ [mail])) = _
      rcases hin.append with ⟨rfl, hopen, hid, peer, rfl⟩ | ⟨before, rfl, hbefore⟩
      · have hunknown : streamOf? σ.handled id = none := streamOf?_eq_none (by omega)
        have hasked := h.asked hrunning
        rw [hf.reached.run_eq, echoes, (hf.reached.nothing_of_unknown hunknown).2.2,
          sendsTo_append] at hasked
        rw [requestsOf_append, sendsTo_append, (List.append_eq_nil_iff.mp hasked).1]
        rfl
      · rw [requestsOf_append, requestsOf_append, sendsTo_append, sendsTo_append,
          h.since transport leftover before hbefore] }

theorem retires (h : σ.Echoing limit id) : { σ with host := σ.host.retire }.Echoing limit id where
  application := by
    have happlication : σ.host.retire.application = σ.host.application :=
      σ.host.unfelt_retire.application
    show σ.host.retire.application.Echoes id
    rw [happlication]
    exact h.application
  asked hrunning := by
    have hover : σ.host.retire.running = false := σ.host.unfelt_retire.running
    exact absurd (hrunning.symm.trans hover) (by decide)
  since := h.since

theorem read (h : σ.Echoing limit id) (client : Transport) (most : Option Nat) :
    (σ.clientRead client most).Echoing limit id := by
  unfold clientRead
  cases hread : σ.host.clientRead? client most with
  | none => exact h
  | some outcome =>
    have hasks := h.asks (Host.asks_clientRead? hread id)
    exact ⟨hasks.application, hasks.asked, hasks.since⟩

theorem engine (h : σ.Echoing limit id) (hf : σ.Follows limit s) :
    σ.engineStep.Echoing limit id := by
  unfold engineStep
  cases hrunning : σ.host.running with
  | false => exact h
  | true =>
    cases σ.host.engine.isDone with
    | true => exact h.retires
    | false =>
      cases htake : σ.host.takeMail? with
      | none => exact h
      | some taken => exact h.handles hf hrunning htake

/-- A move that leaves the echo alone keeps to it. -/
theorem move (h : σ.Echoing limit id) (hf : σ.Follows limit s) {m : Move} (hm : m.LeavesEcho id) :
    (σ.move m).Echoing limit id := by
  cases m with
  | engine => exact h.engine hf
  | job task => exact h.asks (σ.host.asks_jobTurn id task)
  | opening opened => exact h.unfelt (σ.host.unfelt_openingTurn opened)
  | acceptor => exact h.unfelt σ.host.unfelt_acceptorTurn
  | request request =>
    have hasks := (σ.host.performs_request request).asks id
    rw [show request.frameTo? id = none from hm] at hasks
    exact h.asks hasks
  | connect capacity leftover => exact h.asks ((σ.host.performs_connect capacity leftover).asks id)
  | refuse => exact h.unfelt σ.host.unfelt_refuse
  | arrive capacity peer => exact h.unfelt (σ.host.unfelt_arrive capacity peer)
  | arriveBroken fault => exact h.unfelt (σ.host.unfelt_arriveBroken fault)
  | write client data => exact h.asks (σ.host.asks_clientWrite id client data)
  | read client most => exact h.read client most
  | shutDown client => exact h.unfelt (σ.host.unfelt_clientShutDown client)
  | hangUp client => exact h.unfelt (σ.host.unfelt_clientHangUp client)
  | other host => exact ⟨hm, h.asked, h.since⟩

theorem run (h : σ.Echoing limit id) (ht : σ.Truthful limit s) {moves : List Move}
    (hmoves : ∀ m ∈ moves, m.LeavesEcho id) : (σ.run moves).Echoing limit id := by
  induction moves generalizing σ s with
  | nil => exact h
  | cons m moves ih =>
    obtain ⟨hm, hlater⟩ := List.forall_mem_cons.mp hmoves
    obtain ⟨s', ht'⟩ := ht.run [m]
    exact ih (h.move ht.faithful.follows hm) ht' hlater

end Echoing

/-! ## What a client gets back -/

/-- What a client has taken from its stream since its session began. -/
def answered (σ : Scene) (transport : Transport) : Bytes :=
  (σ.taken transport).drop (σ.before transport).length

/-- Whether everything that a connection has to do with has come to rest: its stream is empty both
ways, nothing waits for the engine, and nothing is being written to the client. -/
structure AtRest (σ : Scene) (id : ConnectionId) (transport : Transport) : Prop where
  heard : σ.host.inbound transport = []
  completions : σ.host.completions = []
  requests : σ.host.requests.toList = []
  idle : σ.Idle id
  taken : σ.host.outbound transport = []

/-- A client takes the first of the octets that have gone out to it. -/
theorem Sends.answered {transport : Transport} {bytes : Bytes}
    (hs : σ.Sends s id transport bytes) :
    σ.answered transport ++
      (σ.host.outbound transport).drop ((σ.before transport).length - (σ.taken transport).length) =
        bytes := by
  have hall := congrArg (List.drop (σ.before transport).length) hs.sent
  rwa [Scene.sent, List.drop_append, List.drop_left] at hall

/-- An engine that has an open connection takes mail. -/
theorem Follows.running_of_open (h : σ.Follows limit s)
    (hopen : isOpen (s.engine.table.find? id) = true) : σ.host.running = true := by
  by_contra hrunning
  have hdone := h.finished (Bool.not_eq_true _ ▸ hrunning)
  rw [h.engine] at hdone
  rw [Engine.find?_of_isDone hdone] at hopen
  cases hopen

theorem echoing_start (settings : Settings) {application : Application} (address : String)
    (h : application.Echoes id) :
    (start settings application address).Echoing settings.payloadLimit id where
  application := h
  asked _ := rfl
  since _ _ _ hin := absurd rfl hin.ne_nil

/-- What the engine queues for the client are its first messages. -/
theorem Echoing.joined_isPrefix (h : σ.Echoing limit id) (hf : σ.Follows limit s)
    {transport : Transport} {leftover : ReceiveBuffer} {later : List Mail}
    (hin : LetIn σ.handled id transport leftover later) {sent : List (Message × MaskKey)}
    {heard : Bytes} (hc : s.Converses id sent heard later) :
    joined (effectsOn id s.effects) <+: sent.map (·.1.frame) ∧
      (heard = MaskedFrame.encodings (maskedAll sent) → σ.host.requests.toList = [] →
        joined (effectsOn id s.effects) = sent.map (·.1.frame)) := by
  obtain ⟨first, hfirst, htold, hall⟩ := hc.told
  have hechoes : echoes id s.effects = first.map (·.frame) := by
    rw [echoes, htold]
    show (first.map Event.message).filterMap _ = _
    rw [List.filterMap_map, ← List.filterMap_eq_map]
    rfl
  have hasked := h.asked (hf.running_of_open hc.lasts)
  rw [hf.reached.run_eq, hechoes, sendsTo_append, h.since _ _ _ hin, ← hc.queued] at hasked
  constructor
  · have hfront := hfirst.map (·.frame)
    rw [← hasked, List.map_map] at hfront
    exact (List.prefix_append _ _).trans hfront
  · intro hheard hnone
    rw [hnone, show sendsTo id [] = [] from rfl, List.append_nil, hall hheard, List.map_map] at hasked
    exact hasked

/-- The client of a connection gets its messages back. -/
structure Echoed (σ : Scene) (id : ConnectionId) (transport : Transport)
    (sent : List (Message × MaskKey)) (said : Bytes) : Prop where
  /-- What it has received are the first of its messages, in their order and unchanged. -/
  order : (Peer.splitAll (σ.answered transport)).ending = .waits ∧
    (Peer.splitAll (σ.answered transport)).frames <+: sent.map (·.1.frame.received)
  /-- It has received all of them when it has said them all and everything has come to rest. -/
  all : said = MaskedFrame.encodings (maskedAll sent) → σ.AtRest id transport →
    Peer.splitAll (σ.answered transport) = ⟨sent.map (·.1.frame.received), .waits, []⟩

/-- Whatever the settings, the sizes of the pipes and the order of moves, whatever else the
application does, and however the octets of a client are cut: a client that sends messages only gets
each of them back from an application that echoes, in their order and unchanged. -/
theorem echoed (settings : Settings) {application : Application} (address : String)
    {moves : List Move} {id : ConnectionId} {transport : Transport} {leftover : ReceiveBuffer}
    {later : List Mail} {sent : List (Message × MaskKey)} (hechoes : application.Echoes id)
    (hmoves : ∀ m ∈ moves, m.LeavesEcho id)
    (hin : LetIn ((start settings application address).run moves).handled id transport leftover
      later)
    (hspared : ∀ errand ∈ errandsFor id later, errand.Spares)
    (hfit : ∀ one ∈ sent, one.1.Fits settings.payloadLimit)
    (hsaid : (start settings application address).said transport [] moves <+:
      MaskedFrame.encodings (maskedAll sent)) :
    ((start settings application address).run moves).Echoed id transport sent
      ((start settings application address).said transport [] moves) := by
  have htruthful := truthful_start settings application address
  have hechoing := (echoing_start settings address hechoes).run htruthful hmoves
  have hheard := said_eq settings application address moves hin
  obtain ⟨s, ht⟩ := htruthful.run moves
  generalize (start settings application address).said transport [] moves = said at hsaid hheard ⊢
  generalize (start settings application address).run moves = σ at hin hechoing hheard ht ⊢
  have hfollows := ht.faithful.follows
  have hcut := (List.prefix_append _ _).trans (hheard ▸ hsaid)
  have hconverses := ht.conveyed.converses hin hspared hfit hcut
  obtain ⟨hfirst, hall⟩ := hechoing.joined_isPrefix hfollows hin hconverses
  obtain ⟨bytes, hsends⟩ := ht.faithful.sends id transport hin.streamOf?_eq
  have hsplits : ∀ frame ∈ sent.map (·.1.frame), frame.Splits := by
    intro frame hmem
    obtain ⟨one, hone, rfl⟩ := List.mem_map.mp hmem
    exact (hfit one hone).splits
  have hreceived : (sent.map (·.1.frame)).map (·.received) = sent.map (·.1.frame.received) :=
    List.map_map
  have hanswered := hsends.answered
  refine ⟨?_, fun hwhole hrest => ?_⟩
  · rw [← hreceived]
    refine Peer.splitAll_of_isPrefix hsplits ?_
    have hout : σ.answered transport <+: bytes := ⟨_, hanswered⟩
    have hqueued := (hfollows.started_isPrefix hin.streamOf?_eq).trans hfirst
    exact (hout.trans hsends.begun).trans (wires_isPrefix hqueued)
  · have harriving : σ.host.arriving id transport = [] := by
      rw [Host.arriving, hrest.completions, hrest.heard]
      rfl
    rw [harriving, List.append_nil] at hheard
    have hidle := hfollows.writesOf_of_idle hrest.idle
    rw [hrest.taken, List.drop_nil, List.append_nil, hsends.idle hconverses.lasts hidle,
      hfollows.started_of_idle hconverses.lasts hidle,
      hall (hheard.symm.trans hwhole) hrest.requests] at hanswered
    rw [hanswered, ← hreceived]
    exact Peer.splitAll_wires hsplits

/-- A client of a narrow stream says a text and two octets, each cut somewhere, and has both of them
back when everything has come to rest. -/
theorem echoed_twice :
    let sent : List (Message × MaskKey) :=
      [(.text "a", ⟨1, 2, 3, 4⟩), (.binary [1, 2], ⟨5, 6, 7, 8⟩)]
    let octets := MaskedFrame.encodings (maskedAll sent)
    let moves : List Move := [.connect 8 (octets.take 3), .engine, .write 0 (octets.drop 3),
      .job (.reader ⟨1⟩), .engine, .engine, .job (.writer ⟨1⟩), .write 0 (octets.drop 11),
      .job (.reader ⟨1⟩), .engine, .engine, .engine, .job (.writer ⟨1⟩), .engine, .read 0 none]
    let σ := (start Settings.standard (Rule.application Rule.echo) "").run moves
    (∃ leftover later, LetIn σ.handled ⟨1⟩ 0 leftover later ∧
      ∀ errand ∈ errandsFor ⟨1⟩ later, errand.Spares) ∧
      σ.AtRest ⟨1⟩ 0 ∧ σ.Echoed ⟨1⟩ 0 sent octets ∧
      Peer.splitAll (σ.answered 0) = ⟨[⟨.text, [97]⟩, ⟨.binary, [1, 2]⟩], .waits, []⟩ := by
  intro sent octets moves σ
  have hstream : streamOf? σ.handled ⟨1⟩ = some 0 := by decide +kernel
  obtain ⟨leftover, later, hin⟩ := exists_letIn hstream
  have hall : ∀ errand ∈ errandsFor ⟨1⟩ σ.handled, errand.Spares := by decide +kernel
  have hspared : ∀ errand ∈ errandsFor ⟨1⟩ later, errand.Spares := fun errand hmem =>
    hall errand ((hin.isSuffix.filterMap _).subset hmem)
  have hmoves : ∀ m ∈ moves, m.LeavesEcho ⟨1⟩ := by simp [moves, Move.LeavesEcho]
  have hfit : ∀ one ∈ sent, one.1.Fits Settings.standard.payloadLimit :=
    List.forall_mem_cons.mpr ⟨⟨by decide +kernel, by decide +kernel⟩,
      List.forall_mem_singleton.mpr ⟨by decide +kernel, by decide +kernel⟩⟩
  have hsaid : (start Settings.standard (Rule.application Rule.echo) "").said 0 [] moves = octets := by
    decide +kernel
  have hechoed := echoed Settings.standard "" (Rule.echoes_echo ⟨1⟩) hmoves hin hspared hfit
    (hsaid ▸ List.prefix_refl _)
  rw [hsaid] at hechoed
  have hrest : σ.AtRest ⟨1⟩ 0 := {
    heard := by decide +kernel
    completions := List.isEmpty_iff.mp (by decide +kernel)
    requests := by decide +kernel
    idle := by
      have hnone : σ.host.completions = [] := List.isEmpty_iff.mp (by decide +kernel)
      refine ⟨by decide +kernel, fun writer result => ?_⟩
      rw [hnone]
      exact List.not_mem_nil
    taken := by decide +kernel }
  exact ⟨⟨leftover, later, hin, hspared⟩, hrest, hechoed, hechoed.all rfl hrest⟩

end Scene

end WebSocket
