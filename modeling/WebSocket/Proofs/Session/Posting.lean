import WebSocket.Proofs.Session.Succession

/-!
# Messages in the order in which they were posted

The messages that join the queue of a connection are those that the application sends to it while it
is open, in their order: an unbroken stretch of all that it ever sends there, which lasts up to now
as long as the connection is open (`Reached.posting`).
-/

namespace WebSocket

def Request.frameTo? (id : ConnectionId) : Request → Option ServerFrame
  | send other message _ => if other = id then some message.frame else none
  | drop _ | closeAll => none

def Mail.request? : Mail → Option Request
  | completion _ => none
  | request r => some r

def sendsTo (id : ConnectionId) (requests : List Request) : List ServerFrame :=
  requests.filterMap (·.frameTo? id)

def requestsOf (mails : List Mail) : List Request := mails.filterMap (·.request?)

@[simp] theorem sendsTo_append (id : ConnectionId) (requests more : List Request) :
    sendsTo id (requests ++ more) = sendsTo id requests ++ sendsTo id more :=
  List.filterMap_append ..

@[simp] theorem requestsOf_append (mails more : List Mail) :
    requestsOf (mails ++ more) = requestsOf mails ++ requestsOf more :=
  List.filterMap_append ..

theorem requestsOf_singleton (mail : Mail) : requestsOf [mail] = mail.request?.toList := by
  cases hmail : mail.request? <;> simp [requestsOf, hmail]

def Errand.frame? : Errand → Option ServerFrame
  | send message _ => some message.frame
  | read .. | write .. | drop => none

/-- A piece of mail sends to a connection what its errand there is about. -/
theorem Mail.sendsTo_eq (mail : Mail) (id : ConnectionId) :
    sendsTo id (requestsOf [mail]) = ((mail.errandFor? id).bind (·.frame?)).toList := by
  cases mail with
  | completion completion =>
    cases completion with
    | registered => rfl
    | read other reader input result =>
      by_cases h : other = id <;> simp [errandFor?, errand?, h, requestsOf, request?, sendsTo,
        Errand.frame?]
    | write other writer result =>
      by_cases h : other = id <;> simp [errandFor?, errand?, h, requestsOf, request?, sendsTo,
        Errand.frame?]
  | request request =>
    cases request with
    | send other message loan =>
      by_cases h : other = id <;> simp [errandFor?, errand?, h, requestsOf, request?, sendsTo,
        Errand.frame?, Request.frameTo?]
    | drop other =>
      by_cases h : other = id <;> simp [errandFor?, errand?, h, requestsOf, request?, sendsTo,
        Errand.frame?, Request.frameTo?]
    | closeAll => rfl

namespace Connection

/-- An open connection takes the message that is sent to it, and no other errand brings one. -/
theorem carriers_attend {c : Connection} (hopen : c.closed = false) (errand : Errand) :
    carriers (joined (c.attend errand).2) = errand.frame?.toList := by
  have houtcome := c.outcome_attend errand
  have hnone (errand : Errand) (hsend : ∀ message loan, errand ≠ .send message loan) :
      errand.frame?.toList = [] := by
    cases errand with
    | send message loan => exact absurd rfl (hsend message loan)
    | _ => rfl
  cases errand with
  | send message loan =>
    simp only [attend, joined_answer hopen]
    exact carriers_message message
  | read reader input result =>
    generalize c.attend (.read reader input result) = outcome at houtcome
    cases houtcome with
    | drops hnotes =>
      rw [joined_append, hnotes.joined_eq, joined_dropped]
      rfl
    | breaks _ _ hown =>
      rw [joined_append, joined_dropped, List.append_nil, hown]
      rfl
    | reads _ _ hown =>
      rw [joined_append, joined_startEffect, List.append_nil, hown]
      rfl
  | write writer result =>
    generalize c.attend (.write writer result) = outcome at houtcome
    cases houtcome with
    | drops hnotes =>
      rw [joined_append, hnotes.joined_eq, joined_dropped]
      rfl
    | writes =>
      show carriers (joined (startEffect _)) = []
      rw [joined_startEffect]
      rfl
  | drop =>
    show carriers (joined c.dropped.2) = []
    rw [joined_dropped]
    rfl

theorem carriers_opened (c : Connection) : carriers (joined c.opened.2) = [] := by
  show carriers (joined c.processed.2) = []
  obtain ⟨c', effects, -, hown, hends | hreads⟩ := c.processed_cases
  · rw [hends, joined_append, joined_dropped, List.append_nil, hown]
  · rw [hreads, joined_append, joined_startEffect, List.append_nil, hown]

end Connection

/-- The frames that were taken are an unbroken stretch of those that were sent, and it lasts up to
now if the connection is open. -/
structure Stretch (taken sent : List ServerFrame) (open_ : Bool) : Prop where
  within : taken <:+: sent
  lasting : open_ = true → taken <:+ sent

namespace Stretch

variable {taken sent : List ServerFrame} {open_ : Bool}

theorem nil (sent : List ServerFrame) (open_ : Bool) : Stretch [] sent open_ :=
  ⟨List.nil_infix, fun _ => List.nil_suffix⟩

/-- What is sent to a connection that is not open is lost. -/
theorem lose (h : Stretch taken sent open_) (more : List ServerFrame) :
    Stretch taken (sent ++ more) false :=
  ⟨h.within.trans (List.prefix_append sent more).isInfix, nofun⟩

/-- What is sent to an open connection is taken. -/
theorem take (h : Stretch taken sent true) (more : List ServerFrame) (later : Bool) :
    Stretch (taken ++ more) (sent ++ more) later := by
  have hlast : taken ++ more <:+ sent ++ more := List.suffix_append_self_iff.mpr (h.lasting rfl)
  exact ⟨hlast.isInfix, fun _ => hlast⟩

end Stretch

namespace Reached

variable {limit : Nat} {mails : List Mail} {s : Course}

/-- The messages that joined the queue of a connection are an unbroken stretch of those that were
sent to it, which lasts up to now if the connection is open. -/
theorem posting (h : Reached limit mails s) (id : ConnectionId) :
    Stretch (carriers (joined (effectsOn id s.effects))) (sendsTo id (requestsOf mails))
      (isOpen (s.engine.table.find? id)) := by
  induction h with
  | start => exact .nil _ _
  | @mail mails s mail h hadmits ih =>
    show Stretch (carriers (joined (effectsOn id (s.effects ++ (s.engine.dispatch mail).2)))) _
      (isOpen ((s.engine.dispatch mail).1.table.find? id))
    rw [effectsOn_append, joined_append, carriers_append, requestsOf_append, sendsTo_append,
      mail.sendsTo_eq]
    rcases h.step mail id with ⟨transport, peer, leftover, hnone, -, -, hagrees⟩ | ⟨-, hagrees⟩
    · have hconfined : Confined id (Connection.new id transport peer leftover limit).opened.2 :=
        Connection.confined_opened _
      rw [(h.nothing_of_unknown hnone).2.2, hagrees.felt, hconfined.joined_effectsOn,
        Connection.carriers_opened]
      exact .nil _ _
    · rw [hagrees.felt, hagrees.found]
      cases hc : s.engine.table.find? id with
      | none =>
        show Stretch (carriers (joined (effectsOn id s.effects)) ++ []) _ false
        rw [List.append_nil]
        exact ih.lose _
      | some c =>
        rw [hc] at ih
        cases herrand : mail.errandFor? id with
        | none =>
          show Stretch (carriers (joined (effectsOn id s.effects)) ++ [])
            (sendsTo id (requestsOf mails) ++ []) (isOpen (some c))
          rw [List.append_nil, List.append_nil]
          exact ih
        | some errand =>
          have hid := h.numbered.id_of_find? hc
          subst hid
          show Stretch (_ ++ carriers (joined (effectsOn c.id (c.attend errand).2)))
            (_ ++ errand.frame?.toList) (isOpen (c.attend errand).1)
          rw [(c.confined_attend errand).joined_effectsOn]
          rw [isOpen_some] at ih
          cases hclosed : c.closed with
          | true =>
            obtain ⟨-, hjoined, hshut⟩ := Connection.attend_of_closed hclosed errand
            rw [hjoined, hshut, show carriers [] = [] from rfl, List.append_nil]
            exact ih.lose _
          | false =>
            rw [hclosed] at ih
            rw [Connection.carriers_attend hclosed]
            exact ih.take _ _

end Reached

end WebSocket
