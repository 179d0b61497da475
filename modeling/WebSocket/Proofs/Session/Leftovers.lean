import WebSocket.Proofs.Session.Attention
import WebSocket.Proofs.Session.Ownership
import WebSocket.Proofs.Wire.Leftovers

/-!
# What a connection leaves undecoded

A connection decodes its input until nothing comes, so it handles at most as many frames as the
input has octets, and what it leaves for the next read is less than its limit on payloads: that is
true of every read that ever begins, whatever the client sends (`Reached.frugal`).  While the read
is in flight the connection itself holds nothing.  Drains and connections together are
`drain_rest_bounded`.
-/

namespace WebSocket

/-- Less than a whole payload is left over, whatever the decoder waits for. -/
theorem Awaiting.Leaves.lt {limit : Nat} {rest : Bytes} {awaiting : Awaiting}
    (h : awaiting.Leaves (clampPayloadLimit limit) rest) :
    rest.length < clampPayloadLimit limit := by
  cases awaiting with
  | header =>
    have hroom : maxHeaderLength ≤ clampPayloadLimit limit :=
      Nat.le_trans (by decide) (Nat.le_max_right limit maxControlPayload)
    exact Nat.lt_of_lt_of_le h hroom
  | payload head => exact Nat.lt_of_lt_of_le h.1 h.2

/-- All reads among these operations begin with few octets. -/
def Frugal (limit : Nat) (operations : List Operation) : Prop :=
  ∀ id reader input, .read id reader input ∈ operations → input.size < clampPayloadLimit limit

theorem Frugal.append {limit : Nat} {operations more : List Operation} (h : Frugal limit operations)
    (h' : Frugal limit more) : Frugal limit (operations ++ more) := by
  intro id reader input hmem
  rcases List.mem_append.mp hmem with hmem | hmem
  · exact h id reader input hmem
  · exact h' id reader input hmem

theorem Frugal.of_reads_nil {operations : List Operation} (h : reads operations = [])
    (limit : Nat) : Frugal limit operations := by
  intro id reader input hmem
  have hread : .read id reader input ∈ reads operations := List.mem_filter.mpr ⟨hmem, rfl⟩
  rw [h] at hread
  cases hread

namespace Connection

/-! ## Handling input -/

theorem count_not_mem_answer (c : Connection) (outgoing : Outgoing) (sample : Sample) :
    .count sample ∉ (c.answer outgoing).2 := by
  cases hclosed : c.closed with
  | true =>
    rw [answer_of_closed hclosed]
    exact List.not_mem_nil
  | false =>
    rw [answer_of_open hclosed]
    split
    · cases (c.pushed outgoing).beginWrite.2 <;> simp [startEffect]
    · simp

/-- No frame is counted twice. -/
theorem count_not_mem_receive (c : Connection) (frame : InboundFrame) (sample : Sample) :
    .count sample ∉ (c.receive frame).effects := by
  unfold receive
  split
  · split <;> simp
  · simp
  · exact count_not_mem_answer c _ sample
  · simp
  · exact count_not_mem_answer c.markClosing _ sample
  · simp

theorem reads_receive (c : Connection) (frame : InboundFrame) :
    reads (begun (c.receive frame).effects) = [] := by
  unfold receive
  split
  · split <;> rfl
  · rfl
  · exact reads_answer c _
  · rfl
  · exact reads_answer c.markClosing _
  · rfl

/-- What comes of handling some octets, of which little is left. -/
structure Handled.LeavesLittle (limit : Nat) (octets : Bytes) (handled : Handled) : Prop where
  sound : handled.connection.decoder.Sound limit
  noRead : reads (begun handled.effects) = []
  /-- Every frame that was handled took octets. -/
  frames : handled.effects.count (.count (.frame .inbound)) +
    handled.connection.input.toList.length ≤ octets.length
  little : handled.violation = none → handled.connection.closed = false →
    handled.connection.closeQueued = false →
    handled.connection.decoder.awaiting.Leaves (clampPayloadLimit limit)
      handled.connection.input.toList

variable {limit : Nat} {c : Connection}

theorem toList_withInput (c : Connection) (rest : Bytes) :
    (c.withInput rest).input.toList = rest :=
  ReceiveBuffer.toList_keep c.input rest

/-- A frame that is handled takes octets, and the rest is what comes after it. -/
theorem Handled.LeavesLittle.cons {octets rest : Bytes} {later : Handled}
    (h : later.LeavesLittle limit rest) (hless : rest.length < octets.length)
    (frame : InboundFrame) :
    Handled.LeavesLittle limit octets { later with
      effects := .count (.frame .inbound) :: ((c.receive frame).effects ++ later.effects) } where
  sound := h.sound
  noRead := by
    show reads (begun ((c.receive frame).effects ++ later.effects)) = []
    rw [begun_append, reads_append, c.reads_receive, h.noRead]
    rfl
  frames := by
    have hframes := h.frames
    have hnone := List.count_eq_zero_of_not_mem (c.count_not_mem_receive frame (.frame .inbound))
    simp only [List.count_cons_self, List.count_append, hnone]
    omega
  little := h.little

theorem leavesLittle_consumeFrom (h : c.decoder.Sound limit) (octets : Bytes) :
    (c.consumeFrom octets).LeavesLittle limit octets := by
  fun_induction consumeFrom c octets with
  | case1 c octets hends =>
    refine ⟨h, rfl, ?_, fun _ hopen hfirst => ?_⟩
    · rw [toList_withInput, List.count_nil, Nat.zero_add]
    · have hopen' : c.closed = false := hopen
      have hfirst' : c.closeQueued = false := hfirst
      rw [hopen', hfirst'] at hends
      cases hends
  | case2 c octets _ decoded c' error herror =>
    refine ⟨h.decode octets, rfl, ?_, fun hnone => absurd hnone (Option.some_ne_none error)⟩
    rw [toList_withInput, List.count_nil, Nat.zero_add]
    exact h.length_decode_le octets
  | case3 c octets _ decoded c' hnothing =>
    refine ⟨h.decode octets, rfl, ?_, fun _ _ _ => ?_⟩
    · rw [toList_withInput, List.count_nil, Nat.zero_add]
      exact h.length_decode_le octets
    · rw [toList_withInput]
      exact h.leaves hnothing
  | case4 c octets _ decoded c' frame hframe first error hviolation =>
    have hsound : first.connection.decoder.Sound limit := by
      rw [c'.receive_decoder frame]
      exact h.decode octets
    have hless : decoded.rest.length < octets.length := h.shrinks hframe
    have hbroken : Handled.LeavesLittle limit decoded.rest
        ⟨first.connection.withInput decoded.rest, [], some error⟩ := by
      refine ⟨hsound, rfl, ?_, fun hnone => absurd hnone (Option.some_ne_none error)⟩
      rw [toList_withInput, List.count_nil, Nat.zero_add]
    simpa using hbroken.cons (c := c') hless frame
  | case5 c octets _ decoded c' frame hframe first hnone later ih =>
    have hsound : first.connection.decoder.Sound limit := by
      rw [c'.receive_decoder frame]
      exact h.decode octets
    exact (ih hsound).cons (h.shrinks hframe) frame

/-- A connection that waits for a payload leaves its input as it is. -/
theorem leavesLittle_consume (h : c.decoder.Sound limit) :
    c.consume.LeavesLittle limit c.input.toList := by
  unfold consume
  split
  · rename_i hlack
    have hdecode := decode_of_lack_pos hlack
    have hnothing : (c.decoder.decode c.input.toList).result = .ok none := by rw [hdecode]
    have hleaves := h.leaves hnothing
    rw [hdecode] at hleaves
    exact ⟨h, rfl, by simp [askForPayload, ReceiveBuffer.ask, ReceiveBuffer.toList],
      fun _ _ _ => hleaves⟩
  · exact leavesLittle_consumeFrom h c.input.toList

/-! ## Errands -/

/-- What is true of a connection between two errands: it holds nothing of its input, unless it reads
no more. -/
structure Spent (limit : Nat) (c : Connection) : Prop where
  sound : c.decoder.Sound limit
  empty : c.closed = false → c.closeQueued = false → c.input.toList = []

/-- What is true of every outcome. -/
structure LeavesLittle (limit : Nat) (outcome : Option Connection × List Effect) : Prop where
  spent : ∀ c, outcome.1 = some c → c.Spent limit
  frugal : Frugal limit (begun outcome.2)

/-- A connection that has closed reads no more. -/
theorem leavesLittle_of_shut {outcome : Option Connection × List Effect}
    (hsound : ∀ c, outcome.1 = some c → c.decoder.Sound limit) (hshut : isOpen outcome.1 = false)
    (hnone : reads (begun outcome.2) = []) : LeavesLittle limit outcome where
  spent c hc := by
    refine ⟨hsound c hc, fun hopen => ?_⟩
    rw [hc, isOpen_some, hopen] at hshut
    cases hshut
  frugal := .of_reads_nil hnone limit

theorem leavesLittle_dropped (h : c.decoder.Sound limit) (effects : List Effect)
    (hnone : reads (begun effects) = []) :
    LeavesLittle limit (c.dropped.1, effects ++ c.dropped.2) := by
  refine leavesLittle_of_shut (fun c' hc' => ?_) c.isOpen_dropped ?_
  · rw [(keeps_dropped hc').decoder]
    exact h
  · show reads (begun (effects ++ c.dropped.2)) = []
    rw [begun_append, begun_dropped, List.append_nil, hnone]

/-- After its input was handled a connection reads on with what is left, and that is little. -/
theorem leavesLittle_processed (h : c.decoder.Sound limit) (hopen : c.closed = false)
    {transport : Transport} (hreader : c.reader = some transport) :
    LeavesLittle limit c.processed := by
  obtain ⟨hsound, hnone, -, hlittle⟩ := leavesLittle_consume h
  have hopen' := c.grows_consume.closed.trans hopen
  have hreader' := c.grows_consume.reader.trans hreader
  simp only [processed, violated]
  generalize c.consume = handled at *
  obtain ⟨c', effects, violation⟩ := handled
  dsimp only at hsound hnone hlittle hopen' hreader' ⊢
  cases violation with
  | some error =>
    have hnone' : reads (begun (effects ++ [.report (.violation c'.id error),
        .count (.error .protocol)])) = [] := by
      rw [begun_append, reads_append, hnone]
      rfl
    simpa using leavesLittle_dropped hsound _ hnone'
  | none =>
    rw [beginRead_of_open hopen' hreader']
    cases hqueued : c'.closeQueued with
    | true =>
      rw [if_pos rfl]
      refine ⟨fun c'' hsame => ?_, .of_reads_nil ?_ limit⟩
      · cases hsame
        exact ⟨hsound, fun _ hfirst => absurd (hqueued.symm.trans hfirst) (by decide)⟩
      · rw [begun_append, begun_startEffect, reads_append, hnone]
        rfl
    | false =>
      rw [if_neg (by decide)]
      refine ⟨fun c'' hsame => ?_, ?_⟩
      · cases hsame
        exact ⟨hsound, fun _ _ => ReceiveBuffer.toList_ofSize 0⟩
      · rw [begun_append, begun_startEffect]
        refine Frugal.append (.of_reads_nil hnone limit) ?_
        intro id reader input hmem
        cases List.mem_singleton.mp hmem
        rw [ReceiveBuffer.size_eq_length]
        exact (hlittle rfl hopen' hqueued).lt

/-- No errand but the end of a read begins one. -/
theorem reads_attend_of_not_read {errand : Errand} (hother : errand.isRead = false) :
    reads (begun (c.attend errand).2) = [] := by
  cases hclosed : c.closed with
  | true =>
    rw [(attend_of_closed hclosed errand).1]
    rfl
  | false =>
    have haside := aside_attend hclosed hother
    generalize c.attend errand = outcome at haside
    cases haside with
    | stays _ _ _ hreads => exact hreads
    | ends _ _ _ hbegun =>
      rw [hbegun]
      rfl

theorem leavesLittle_attend (h : c.Spent limit) (errand : Errand) :
    LeavesLittle limit (c.attend errand) := by
  cases hother : errand.isRead with
  | false =>
    refine ⟨fun c' hc' => ?_, .of_reads_nil (reads_attend_of_not_read hother) limit⟩
    have hkeeps := keeps_attend hother hc'
    refine ⟨hkeeps.decoder.symm ▸ h.sound, fun hopen hfirst => ?_⟩
    rw [hkeeps.input]
    refine h.empty ?_ (hkeeps.closeQueued.symm.trans hfirst)
    by_contra hclosed
    have hshut := (attend_of_closed (Bool.not_eq_false _ ▸ hclosed) errand).2.2
    rw [hc', isOpen_some, hopen] at hshut
    cases hshut
  | true =>
    cases errand with
    | write | send | drop => cases hother
    | read reader input result =>
      have hsound : (c.finishRead reader input).decoder.Sound limit := h.sound
      have hdropped : LeavesLittle limit (c.finishRead reader input).dropped :=
        leavesLittle_dropped hsound [] rfl
      simp only [attend]
      split
      · exact hdropped
      · rename_i hopen
        split
        · exact hdropped
        · exact leavesLittle_processed hsound (Bool.not_eq_true _ ▸ hopen) rfl
        · exact leavesLittle_dropped hsound [_, _] rfl

end Connection

/-! ## Lives -/

namespace Lived

variable {id : ConnectionId} {transport : Transport} {peer : Option SocketAddress}
  {leftover : ReceiveBuffer} {limit : Nat} {l : Life}

/-- In every life all reads begin with few octets. -/
theorem leavesLittle (h : Lived (.new id transport peer leftover limit) l) :
    Connection.LeavesLittle limit (l.now, l.effects) := by
  induction h with
  | begin =>
    have hprocessed : Connection.LeavesLittle limit
        (Connection.new id transport peer leftover limit).processed :=
      Connection.leavesLittle_processed (Decoder.sound_new limit) rfl rfl
    exact ⟨hprocessed.spent, hprocessed.frugal⟩
  | @errand l errand h hadmits ih =>
    cases hnow : l.now with
    | none =>
      rw [h.after_gone hnow]
      exact ih
    | some c =>
      have hattend := Connection.leavesLittle_attend (ih.spent c hnow) errand
      rw [Life.after_of_now hnow]
      refine ⟨hattend.spent, ?_⟩
      show Frugal limit (begun (l.effects ++ (c.attend errand).2))
      rw [begun_append]
      exact ih.frugal.append hattend.frugal

end Lived

/-! ## Courses -/

/-- Between two reads the connections of a course hold few octets that are not decoded. -/
structure Course.HoldsLittle (limit : Nat) (s : Course) : Prop where
  /-- With so few octets every read begins. -/
  begins : ∀ id reader input, .start (.read id reader input) ∈ s.effects →
    input.size < max limit 125
  /-- A connection that reads on has its read in flight, and all that is not decoded is with it. -/
  between : ∀ id c, s.engine.table.find? id = some c → c.closed = false → c.closeQueued = false →
    c.decoder.limit = max limit 125 ∧ c.input.size = 0 ∧
      ∃ reader input, s.readsOf id = [.read id reader input] ∧ input.size < c.decoder.limit

namespace Reached

variable {limit : Nat} {mails : List Mail} {s : Course}

/-- What is in flight has begun. -/
theorem begun_of_inFlight (h : Reached limit mails s) {o : Operation} (hmem : o ∈ s.inFlight) :
    o ∈ begun s.effects := by
  induction h with
  | start => cases hmem
  | @mail mails s mail h hadmits ih =>
    show o ∈ begun (s.effects ++ (s.engine.dispatch mail).2)
    rw [begun_append, List.mem_append]
    rcases List.mem_append.mp hmem with hmem | hmem
    · exact .inl (ih (List.mem_of_mem_eraseP hmem))
    · exact .inr hmem

/-- In every course all reads begin with few octets. -/
theorem frugal (h : Reached limit mails s) : Frugal limit (begun s.effects) := by
  intro id reader input hmem
  have hown : .read id reader input ∈ begun (effectsOn id s.effects) := by
    rw [begun_effectsOn]
    exact List.mem_filter.mpr ⟨hmem, decide_eq_true rfl⟩
  cases hstream : streamOf? mails id with
  | none =>
    rw [(h.nothing_of_unknown hstream).2.2] at hown
    cases hown
  | some transport =>
    obtain ⟨peer, leftover, l, hlived, hs⟩ := h.shows_of_known hstream
    rw [hs.begun_eq hlived.confined] at hown
    exact hlived.leavesLittle.frugal id reader input hown

/-- A connection that reads on has given its input to the read in flight. -/
theorem spent (h : Reached limit mails s) {id : ConnectionId} {c : Connection}
    (hc : s.engine.table.find? id = some c) : c.Spent limit := by
  cases hstream : streamOf? mails id with
  | none =>
    have hnone := (h.nothing_of_unknown hstream).1
    exact absurd (hc.symm.trans hnone) (Option.some_ne_none _)
  | some transport =>
    obtain ⟨peer, leftover, l, hlived, hs⟩ := h.shows_of_known hstream
    exact hlived.leavesLittle.spent c (hs.found.symm.trans hc)

theorem holdsLittle (h : Reached limit mails s) : s.HoldsLittle limit where
  begins id reader input hmem := by
    have hbegun : .read id reader input ∈ begun s.effects :=
      List.mem_filterMap.mpr ⟨_, hmem, rfl⟩
    exact h.frugal id reader input hbegun
  between id c hc hopen hfirst := by
    obtain ⟨transport, l, -, hs, hsound, -⟩ := h.sound hc
    have hspent := h.spent hc
    have hempty : c.input.size = 0 := by
      rw [c.input.size_eq_length, hspent.empty hopen hfirst, List.length_nil]
    refine ⟨hspent.sound.limit_eq, hempty, ?_⟩
    have hreading : c.reading = true := by
      rw [hsound.reading hopen, hfirst]
      rfl
    have hreader := hsound.reader
    generalize hreads : reads l.inFlight = operations at hreader
    cases hreader with
    | held hidle => exact absurd (hidle.symm.trans hreading) (by decide)
    | @lent input _ _ =>
      have hmem : .read c.id transport input ∈ l.inFlight := by
        have hread : .read c.id transport input ∈ reads l.inFlight := by rw [hreads]; simp
        exact (List.mem_filter.mp hread).1
      have hfew := h.frugal _ _ _ (h.begun_of_inFlight (hs.mem hmem).1)
      refine ⟨transport, input, ?_, hspent.sound.limit_eq ▸ hfew⟩
      rw [s.readsOf_eq, hs.inFlight, hreads, h.numbered.id_of_find? hc]

end Reached

/-! ## Main statement -/

/-- Draining a buffer comes to an end and leaves little in it. -/
structure LeavesLittle (limit : Nat) : Prop where
  /-- Every frame takes octets from the buffer. -/
  shrinks : ∀ decoder, Decoder.Reachable limit decoder → ∀ input frame,
    (decoder.decode input).result = .ok (some frame) →
      (decoder.decode input).rest.length < input.length
  /-- So decoding until nothing comes ends after as many frames as there are octets at most. -/
  ends : ∀ decoder, Decoder.Reachable limit decoder → ∀ input,
    (decoder.drain input).frames.length + (decoder.drain input).rest.length ≤ input.length
  /-- A connection ends likewise with its input. -/
  handled : ∀ c : Connection, Decoder.Reachable limit c.decoder →
    c.consume.effects.count (.count (.frame .inbound)) + c.consume.connection.input.size ≤
      c.input.size
  /-- What is left is less than a header or less than the payload under way. -/
  leaves : ∀ decoder, Decoder.Reachable limit decoder → ∀ input,
    (decoder.drain input).error = none →
      (decoder.drain input).decoder.awaiting.Leaves (max limit 125) (decoder.drain input).rest
  /-- Between two reads a connection holds less than its limit. -/
  held : ∀ mails s, Reached limit mails s → s.HoldsLittle limit

theorem drain_rest_bounded (limit : Nat) : LeavesLittle limit where
  shrinks _ h _ _ hframe := h.sound.shrinks hframe
  ends _ h input := h.sound.length_drain input
  handled c h := by
    have hframes := (Connection.leavesLittle_consume h.sound).frames
    rwa [← ReceiveBuffer.size_eq_length, ← ReceiveBuffer.size_eq_length] at hframes
  leaves _ h _ hnone := h.sound.drain_leaves hnone
  held _ _ h := h.holdsLittle

end WebSocket
