import WebSocket.Proofs.Session.Attention

/-!
# Responses to a client

What the engine does with the input of a connection is told by the octets alone, however they are
cut into what was left over and reads.  It tells the application of the messages of the speech, it
queues the answers to the speech, and the connection breaks off, waits for its answer to a Close
frame to be written, or reads on, as the speech has ended (`Conveyed.responds`).  This holds as long
as nothing but the client ends the session.
-/

namespace WebSocket

/-- A Close frame has been written to a connection: its write has begun, and it is not in flight any
more. -/
def Course.HasParted (s : Course) (id : ConnectionId) : Prop :=
  closes (framesOf (s.writesOf id)) < closes (framesOf (begun (effectsOn id s.effects)))

instance (s : Course) (id : ConnectionId) : Decidable (s.HasParted id) :=
  inferInstanceAs (Decidable (_ < _))

/-- What the engine has made of the octets of a client. -/
structure Course.Responds (s : Course) (limit : Nat) (id : ConnectionId) (octets : Bytes) :
    Prop where
  /-- The application is told of the messages of the speech, in their order, and of the end once the
  connection has closed. -/
  told : delivered (effectsOn id s.effects) =
    .newConnection :: ((speech limit octets).messages.map .message ++
      if isOpen (s.engine.table.find? id) then [] else [.disconnect])
  /-- The frames that the engine queues of its own accord are the answers to the speech. -/
  own : replies (joined (effectsOn id s.effects)) = (speech limit octets).answers
  /-- Until a Close frame is written, the connection is closed just when the speech has ended with
  a violation. -/
  breaks : ¬ s.HasParted id →
    (isOpen (s.engine.table.find? id) = false ↔ (speech limit octets).ending = .violation)
  /-- Until then it has a Close frame in its queue just when the speech has ended with one. -/
  waits : ¬ s.HasParted id →
    ((∃ c, s.engine.table.find? id = some c ∧ c.closed = false ∧ 0 < closes c.frames) ↔
      ∃ payload, (speech limit octets).ending = .farewell payload)
  /-- It reads just when the speech has not ended. -/
  reads : s.readsOf id ≠ [] ↔ (speech limit octets).ending = .pending

namespace Connection.Stands

variable {decoder : Decoder} {octets : Bytes} {transport : Transport} {now : Option Connection}
  {operations : List Operation} {speech : Speech}

theorem reads_iff (h : Stands decoder octets transport now operations speech) :
    operations ≠ [] ↔ speech.ending = .pending := by
  cases h <;> simp

theorem breaks_iff (h : Stands decoder octets transport now operations speech)
    (hlasts : speech.ending ≠ .violation → isOpen now = true) :
    isOpen now = false ↔ speech.ending = .violation := by
  constructor
  · intro hshut
    by_contra hgood
    exact absurd ((hlasts hgood).symm.trans hshut) (by decide)
  · intro hbad
    cases h with
    | listens => cases hbad
    | leaves => cases hbad
    | broken hshut => exact hshut

theorem waits_iff (h : Stands decoder octets transport now operations speech)
    {inFlight : List Operation} (hsettled : Settled transport inFlight now)
    (hlasts : speech.ending ≠ .violation → isOpen now = true) :
    (∃ c, now = some c ∧ c.closed = false ∧ 0 < WebSocket.closes c.frames) ↔
      ∃ payload, speech.ending = .farewell payload := by
  constructor
  · rintro ⟨c, rfl, hopen, hpos⟩
    have hsound : c.Sound transport inFlight := hsettled
    rw [hsound.closes hopen] at hpos
    cases h with
    | listens _ hfirst =>
      rw [hfirst] at hpos
      cases hpos
    | leaves => exact ⟨_, rfl⟩
    | broken hshut =>
      rw [isOpen_some, hopen] at hshut
      cases hshut
  · rintro ⟨payload, hending⟩
    have hgood : speech.ending ≠ .violation := by
      rw [hending]
      nofun
    obtain ⟨c, rfl, hopen⟩ := exists_of_isOpen (hlasts hgood)
    have hsound : c.Sound transport inFlight := hsettled
    refine ⟨c, rfl, hopen, ?_⟩
    rw [hsound.closes hopen]
    cases h with
    | listens => cases hending
    | leaves _ _ _ hstays =>
      rw [(hstays c rfl).1]
      exact Nat.one_pos
    | broken => cases hending

end Connection.Stands

namespace Course

variable {s : Course} {id : ConnectionId} {l : Life}

theorem Shows.hasParted_iff (h : s.Shows id l) (hl : Confined id l.effects) :
    s.HasParted id ↔ l.HasParted := by
  rw [HasParted, Life.HasParted, h.begun_eq hl, s.writesOf_eq, framesOf_writes, h.inFlight]

end Course

namespace Conveyed

variable {limit : Nat} {mails later : List Mail} {s : Course} {id : ConnectionId}
  {transport : Transport} {leftover : ReceiveBuffer}

/-- The engine responds to what a client has said, and to nothing else. -/
theorem responds (h : Conveyed limit mails s) (hin : LetIn mails id transport leftover later)
    (hspared : ∀ errand ∈ errandsFor id later, errand.Spares) :
    s.Responds limit id (heard leftover (errandsFor id later)) := by
  obtain ⟨peer, l, hl, hs⟩ := h.livedBy hin
  have hconfined := hl.lived.confined
  have hsettled := hl.lived.settled
  have hspared' : ¬ ∃ errand ∈ errandsFor id later, ¬ errand.Spares :=
    fun ⟨errand, hmem, hcause⟩ => hcause (hspared errand hmem)
  rcases hl.attends with ⟨htold, hown, hstands, hended⟩ | ⟨-, -, hcause⟩
  · have hreads : s.readsOf id = WebSocket.reads l.inFlight := by rw [s.readsOf_eq, hs.inFlight]
    rw [← hs.found] at htold hstands hended hsettled
    generalize hsaid : speech limit (heard leftover (errandsFor id later)) = said at *
    have hlasts (hparted : ¬ s.HasParted id) (hgood : said.ending ≠ .violation) :
        isOpen (s.engine.table.find? id) = true := by
      by_contra hshut
      rcases hended (Bool.not_eq_true _ ▸ hshut) with hbad | hdone | hcause
      · exact hgood hbad
      · exact hparted ((hs.hasParted_iff hconfined).mpr hdone)
      · exact hspared' hcause
    refine ⟨?_, ?_, fun hparted => ?_, fun hparted => ?_, ?_⟩
    · rw [hs.delivered_eq hconfined, hsaid]
      exact htold
    · rw [hs.joined_eq hconfined, hsaid]
      exact hown
    · rw [hsaid]
      exact hstands.breaks_iff (hlasts hparted)
    · rw [hsaid]
      exact hstands.waits_iff hsettled (hlasts hparted)
    · rw [hreads, hsaid]
      exact hstands.reads_iff
  · exact absurd hcause hspared'

/-- A client that has said part of a Text frame before it is let in says the rest of it and a Close
frame. -/
theorem responds_farewell :
    let leftover := ReceiveBuffer.ofOctets [137, 128, 0, 0, 0, 0, 129]
    let taken := leftover.keep [129]
    let read := Mail.completion (.read ⟨1⟩ 0
      (taken.append [129, 0, 0, 0, 0, 97, 136, 128, 0, 0, 0, 0]) (.ok 12))
    let s := ((Course.start 8).after (.completion (.registered 0 none leftover))).after read
    Conveyed 8 [.completion (.registered 0 none leftover), read] s ∧
      s.Responds 8 ⟨1⟩ (heard leftover (errandsFor ⟨1⟩ [read])) ∧
      speech 8 (heard leftover (errandsFor ⟨1⟩ [read])) =
        ⟨[⟨.ping, []⟩, ⟨.text, [97]⟩], .farewell []⟩ ∧ ¬ s.HasParted ⟨1⟩ := by
  intro leftover taken read s
  have hflight : .read ⟨1⟩ 0 taken ∈
      ((Course.start 8).after (.completion (.registered 0 none leftover))).inFlight := by
    decide +kernel
  have hconveyed : Conveyed 8 [.completion (.registered 0 none leftover), read] s :=
    (Conveyed.start.bring 0 none leftover).hear hflight (by simp) (by simp)
  have hin : LetIn [.completion (.registered 0 none leftover), read] ⟨1⟩ 0 leftover [read] :=
    @LetIn.intro [] [read] 0 none leftover rfl
  have hspared : ∀ errand ∈ errandsFor ⟨1⟩ [read], errand.Spares := by
    intro errand hmem
    obtain rfl := List.mem_singleton.mp hmem
    exact Nat.succ_ne_zero 11
  exact ⟨hconveyed, hconveyed.responds hin hspared, by decide +kernel, by decide +kernel⟩

end Conveyed

end WebSocket
