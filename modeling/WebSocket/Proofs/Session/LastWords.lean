import WebSocket.Proofs.Session.Attention

/-!
# Last words of a client

The last words of a client are its first Close frame (`LastWords.SaidIn`).  They are answered with a
Close frame, the only one that ever joins the queue of the connection and never without last words
(`Conveyed.closes_joined_le`, `Conveyed.hears`).  A connection that has heard them decodes nothing
that comes behind, and it tells the application of no further message, however long the course goes
on (`Reached.hasHeard_after`).  The good end of the write of the answer closes the connection
(`Reached.shut_after_farewell`).
-/

namespace WebSocket

/-! ## Answers -/

theorem closes_replies (frames : List ServerFrame) : closes (replies frames) = closes frames := by
  rw [closes, closes, replies, List.countP_filter]
  congr 1
  funext frame
  cases hopcode : frame.opcode <;> rfl

namespace Speech

/-- A Close frame is the answer to a Close frame. -/
theorem of_mem_answers {speech : Speech} {frame : ServerFrame} (hmem : frame ∈ speech.answers)
    (hclose : frame.opcode = .close) :
    ∃ payload, speech.ending = .farewell payload ∧ frame = .closeReply payload := by
  rw [answers, List.mem_append] at hmem
  rcases hmem with hmem | hmem
  · obtain ⟨ping, -, hpong⟩ := List.mem_filterMap.mp hmem
    rw [InboundFrame.opcode_of_pong? hpong] at hclose
    cases hclose
  · split at hmem
    · rename_i payload hending
      exact ⟨payload, hending, List.mem_singleton.mp hmem⟩
    · cases hmem

theorem closes_answers_le (speech : Speech) : closes speech.answers ≤ 1 := by
  have hpongs : closes (speech.frames.filterMap (·.pong?)) = 0 := by
    rw [closes, List.countP_eq_zero]
    intro frame hmem
    obtain ⟨ping, -, hpong⟩ := List.mem_filterMap.mp hmem
    rw [InboundFrame.opcode_of_pong? hpong]
    decide
  rw [answers, closes_append, hpongs, Nat.zero_add]
  split
  · exact Nat.le_refl 1
  · exact Nat.zero_le 1

end Speech

/-! ## Last words -/

/-- The first Close frame of a client, with what comes before and behind it. -/
structure LastWords where
  before : List InboundFrame
  close : InboundFrame
  /-- The decoder when the Close frame has just been decoded. -/
  decoder : Decoder
  /-- The octets that are left then. -/
  behind : Bytes

namespace LastWords

def messages (words : LastWords) : List Message := words.before.filterMap (·.message?)

/-- These are the last words in the octets of a client: the octets up to the end of the Close frame
give the frames before it, after none of which a speech ends, and the Close frame. -/
structure SaidIn (words : LastWords) (limit : Nat) (octets : Bytes) : Prop where
  upto : ∃ upto, octets = upto ++ words.behind ∧ (Decoder.new limit).drain upto =
    ⟨words.before ++ [words.close], none, words.decoder, []⟩
  first : ∀ frame ∈ words.before, frame.goesOn
  close : words.close.opcode = .close

/-- A speech with last words ends with them. -/
theorem SaidIn.speech_eq {words : LastWords} {limit : Nat} {octets : Bytes}
    (h : words.SaidIn limit octets) :
    speech limit octets = ⟨words.before, .farewell words.close.payload⟩ := by
  obtain ⟨⟨upto, rfl, hdrain⟩, hfirst, hclose⟩ := h
  have hupto : speech limit upto = ⟨words.before, .farewell words.close.payload⟩ := by
    rw [speech, hdrain, Drained.speech, Speech.of_append hfirst, Speech.of_close hclose,
      Speech.after, List.append_nil]
  have hended : (speech limit upto).ending ≠ .pending := by
    rw [hupto]
    exact Ending.noConfusion
  rw [speech_append hended, hupto]

end LastWords

/-! ## Lives -/

/-- The connection has heard the last words of its client. -/
structure Life.HasHeard (words : LastWords) (l : Life) : Prop where
  told : delivered l.effects = .newConnection :: (words.messages.map .message ++
    if isOpen l.now then [] else [.disconnect])
  answered : .closeReply words.close.payload ∈ joined l.effects
  reads : reads l.inFlight = []
  /-- What is behind the Close frame is left in the input. -/
  stays : ∀ c, l.now = some c → c.decoder = words.decoder ∧ c.input.toList = words.behind

/-- A session that goes as its client says, and in which the client has said a Close frame, has
heard last words. -/
theorem Life.Heeds.hasHeard {limit : Nat} {transport : Transport} {octets : Bytes}
    {errands : List Errand} {l : Life} (h : l.Heeds limit transport octets errands)
    {payload : Bytes} (hending : (speech limit octets).ending = .farewell payload) :
    ∃ words : LastWords, words.SaidIn limit octets ∧ words.close.payload = payload ∧
      l.HasHeard words := by
  obtain ⟨htold, hown, hstands, -⟩ := h
  have hgoes : ∀ frame ∈ (speech limit octets).frames, frame.goesOn :=
    fun _ hmem => Speech.goesOn_of_mem hmem
  generalize speech limit octets = said at *
  generalize hnow : l.now = now at hstands
  generalize hreads : reads l.inFlight = operations at hstands
  cases hstands with
  | listens => cases hending
  | broken => cases hending
  | @leaves _ frames close upto behind later hoctets hdrain hclose hstays =>
    cases hending
    refine ⟨⟨frames, close, later, behind⟩, ⟨⟨upto, hoctets, hdrain⟩, hgoes, hclose⟩, rfl, ?_⟩
    refine ⟨htold, ?_, hreads, fun c hc => (hstays c (hnow.symm.trans hc)).2⟩
    have hanswered : .closeReply close.payload ∈ replies (joined l.effects) := by
      rw [hown]
      exact List.mem_append_right _ (List.mem_singleton_self _)
    exact List.mem_of_mem_filter hanswered

namespace Lived

variable {id : ConnectionId} {transport : Transport} {peer : Option SocketAddress}
  {leftover : ReceiveBuffer} {limit : Nat} {l : Life} {errand : Errand} {words : LastWords}

/-- Once the last words are heard, no errand changes what was decoded or which messages were told
of. -/
theorem hasHeard_after (h : Lived (.new id transport peer leftover limit) l)
    (hadmits : l.Admits errand) (hheard : l.HasHeard words) : (l.after errand).HasHeard words := by
  obtain ⟨htold, hanswered, hnone, hstays⟩ := hheard
  -- No read is in flight, so none can come to its end.
  have hother := hadmits.isRead_eq_false hnone
  have hstays' : ∀ c', (l.after errand).now = some c' →
      c'.decoder = words.decoder ∧ c'.input.toList = words.behind := by
    intro c' hafter
    obtain ⟨c, hnow, hkeeps⟩ := h.keeps_after hother hafter
    rw [hkeeps.decoder, hkeeps.input]
    exact hstays c hnow
  cases hopen : isOpen l.now with
  | false =>
    obtain ⟨hshut, htold', hjoined, -, hflight⟩ := h.after_shut hopen errand
    refine ⟨?_, ?_, ?_, hstays'⟩
    · rw [htold', htold, hopen, hshut]
    · rw [hjoined]
      exact hanswered
    · rw [hflight, Errand.reads_eraseP_of_not_read hother, hnone]
  | true =>
    obtain ⟨c, hnow, hclosed⟩ := exists_of_isOpen hopen
    have haside := Connection.aside_attend hclosed hother
    rw [hopen] at htold
    rw [Life.after_of_now hnow] at hstays' ⊢
    generalize c.attend errand = outcome at haside hstays' ⊢
    have hanswered' : .closeReply words.close.payload ∈ joined (l.effects ++ outcome.2) := by
      rw [joined_append]
      exact List.mem_append_left _ hanswered
    cases haside with
    | stays hopen' htold' _ hreads =>
      refine ⟨?_, hanswered', ?_, hstays'⟩
      · rw [delivered_append, htold, htold', List.append_nil, isOpen_some, hopen']
        rfl
      · rw [reads_append, Errand.reads_eraseP_of_not_read hother, hnone, hreads]
        rfl
    | ends hshut htold' _ hbegun =>
      refine ⟨?_, hanswered', ?_, hstays'⟩
      · rw [delivered_append, htold, htold', hshut]
        simp
      · rw [reads_append, Errand.reads_eraseP_of_not_read hother, hnone, hbegun]
        rfl

/-- The good end of the write of a Close frame closes the connection. -/
theorem shut_after_farewell (h : Lived (.new id transport peer leftover limit) l)
    (writer : Transport) (hclose : 0 < closes (framesOf (begun l.effects))) :
    isOpen (l.after (.write writer (.ok ()))).now = false := by
  cases hopen : isOpen l.now with
  | false => exact (h.after_shut hopen _).1
  | true =>
    obtain ⟨c, hnow, hclosed⟩ := exists_of_isOpen hopen
    rw [Life.after_of_now hnow]
    -- The frame that is being written is the last whose write has begun.
    obtain ⟨earlier, hbegun, hnone⟩ := (h.ordered.ledger c hnow hclosed).front
    obtain ⟨hwritten, -⟩ := Connection.frames_finishWrite hclosed writer
    rw [hbegun, closes_append, hnone, Nat.zero_add, List.take_one, closes,
      List.countP_pos_iff] at hclose
    obtain ⟨frame, hmem, hframe⟩ := hclose
    have hany : (c.finishWrite writer).2.any (·.opcode == .close) = true := by
      rw [hwritten, Option.any_eq_true]
      exact ⟨frame, Option.mem_toList.mp hmem, hframe⟩
    have hclosed' := (c.continues_finishWrite writer).closed.trans hclosed
    simp only [Connection.attend, hclosed', Bool.false_eq_true, if_false, Connection.wrote, hany,
      if_true]
    exact Connection.isOpen_dropped _

end Lived

/-! ## Courses -/

/-- A connection has heard the last words of its client. -/
def Course.HasHeard (s : Course) (limit : Nat) (id : ConnectionId) (words : LastWords) : Prop :=
  ∃ transport peer leftover l, Lived (.new id transport peer leftover limit) l ∧ s.Shows id l ∧
    l.HasHeard words

namespace Reached

variable {limit : Nat} {mails : List Mail} {s : Course} {id : ConnectionId} {transport : Transport}
  {mail : Mail} {words : LastWords}

/-- Once the last words are heard, no mail changes what was decoded or which messages were told
of. -/
theorem hasHeard_after (h : Reached limit mails s) (hadmits : s.Admits mail)
    (hstream : streamOf? mails id = some transport) (hheard : s.HasHeard limit id words) :
    (s.after mail).HasHeard limit id words := by
  obtain ⟨transport', peer, leftover, l, hl, hs, hheard⟩ := hheard
  rcases h.shows_after hadmits hstream hs with ⟨-, hs'⟩ | ⟨errand, -, hadmits', hs'⟩
  · exact ⟨transport', peer, leftover, l, hl, hs', hheard⟩
  · exact ⟨transport', peer, leftover, _, hl.errand hadmits', hs',
      hl.hasHeard_after hadmits' hheard⟩

/-- The good end of the write of a Close frame closes the connection. -/
theorem shut_after_farewell (h : Reached limit mails s) {writer : Transport}
    (hadmits : s.Admits (.completion (.write id writer (.ok ()))))
    (hstream : streamOf? mails id = some transport)
    (hclose : 0 < closes (framesOf (begun (effectsOn id s.effects)))) :
    isOpen ((s.after (.completion (.write id writer (.ok ())))).engine.table.find? id) = false := by
  obtain ⟨peer, leftover, l, hlived, hs⟩ := h.shows_of_known hstream
  have herrand : Mail.errandFor? id (.completion (.write id writer (.ok ()))) =
      some (.write writer (.ok ())) := by
    rw [Mail.errandFor?_of_errand (rfl : Mail.errand? _ = some (id, _)), if_pos rfl]
  rcases h.shows_after hadmits hstream hs with ⟨hnone, -⟩ | ⟨errand, hsome, -, hs'⟩
  · exact absurd (herrand.symm.trans hnone) nofun
  · obtain rfl := Option.some.inj (herrand.symm.trans hsome)
    rw [hs.begun_eq hlived.confined] at hclose
    rw [hs'.found]
    exact hlived.shut_after_farewell writer hclose

end Reached

namespace Conveyed

variable {limit : Nat} {mails later : List Mail} {s : Course} {id : ConnectionId}
  {transport : Transport} {leftover : ReceiveBuffer}

/-- No more than one Close frame joins the queue of a connection. -/
theorem closes_joined_le (h : Conveyed limit mails s)
    (hin : LetIn mails id transport leftover later) :
    closes (joined (effectsOn id s.effects)) ≤ 1 := by
  obtain ⟨peer, l, hl, hs⟩ := h.livedBy hin
  rw [hs.joined_eq hl.lived.confined]
  rcases hl.attends with hheeds | hsevered
  · rw [← closes_replies, hheeds.own]
    exact Speech.closes_answers_le _
  · rw [hsevered.closes]
    exact Nat.zero_le 1

/-- A Close frame in the queue is the answer to the last words of the client, which the connection
has heard. -/
theorem hears (h : Conveyed limit mails s) (hin : LetIn mails id transport leftover later)
    {frame : ServerFrame} (hmem : frame ∈ joined (effectsOn id s.effects))
    (hclose : frame.opcode = .close) :
    ∃ words : LastWords, words.SaidIn limit (heard leftover (errandsFor id later)) ∧
      frame = .closeReply words.close.payload ∧ s.HasHeard limit id words := by
  obtain ⟨peer, l, hl, hs⟩ := h.livedBy hin
  rw [hs.joined_eq hl.lived.confined] at hmem
  rcases hl.attends with hheeds | hsevered
  · have hreply : frame ∈ replies (joined l.effects) :=
      List.mem_filter.mpr ⟨hmem, by simp [hclose]⟩
    rw [hheeds.own] at hreply
    obtain ⟨payload, hending, rfl⟩ := Speech.of_mem_answers hreply hclose
    obtain ⟨words, hsaid, rfl, hheard⟩ := hheeds.hasHeard hending
    exact ⟨words, hsaid, rfl, transport, peer, leftover, l, hl.lived, hs, hheard⟩
  · have hnone := hsevered.closes
    rw [closes, List.countP_eq_zero] at hnone
    exact absurd (by simp [hclose]) (hnone frame hmem)

/-- A connection that is still open has heard the last words of its client if there are any. -/
theorem hears_of_open (h : Conveyed limit mails s)
    (hin : LetIn mails id transport leftover later)
    (hopen : isOpen (s.engine.table.find? id) = true) {words : LastWords}
    (hsaid : words.SaidIn limit (heard leftover (errandsFor id later))) :
    .closeReply words.close.payload ∈ joined (effectsOn id s.effects) := by
  obtain ⟨peer, l, hl, hs⟩ := h.livedBy hin
  rw [hs.found] at hopen
  rw [hs.joined_eq hl.lived.confined]
  rcases hl.attends with hheeds | hsevered
  · obtain ⟨words', -, hpayload, hheard⟩ := hheeds.hasHeard (congrArg Speech.ending hsaid.speech_eq)
    rw [← hpayload]
    exact hheard.answered
  · exact absurd (hopen.symm.trans hsevered.shut) (by decide)

end Conveyed

end WebSocket
