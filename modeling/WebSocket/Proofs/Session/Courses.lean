import WebSocket.Proofs.Session.Dispatch

/-!
# Courses of the engine

A course is what has happened to an engine by some point between two pieces of mail: the engine as
it is then, the operations in flight, and all effects.  An operation is in flight from its beginning
to the mail that tells the engine of its end, so while it runs and while its completion waits.

Mail may come in any order and with any content, except that a completion answers an operation in
flight and brings back the half that it took away (`Course.Admits`).  `Reached` gives the courses
that there are.
-/

namespace WebSocket

/-! ## Ends of operations -/

/-- Whether the errand is the end of a read or of a write. -/
def Errand.isEnd : Errand → Bool
  | read .. | write .. => true
  | send .. | drop => false

def Errand.ends : Errand → Operation → Bool
  | read reader _ _, .read _ taken _ => reader == taken
  | write writer _, .write _ taken _ => writer == taken
  | _, _ => false

def Mail.ends (mail : Mail) (operation : Operation) : Bool :=
  (mail.errandFor? operation.id).any (·.ends operation)

theorem Mail.ends_of_errand {mail : Mail} {id : ConnectionId} {errand : Errand}
    (h : mail.errand? = some (id, errand)) (operation : Operation) :
    mail.ends operation = (errand.ends operation && operation.id == id) := by
  rw [ends, mail.errandFor?_of_errand h]
  by_cases hid : id = operation.id
  · simp [hid]
  · simp [hid, Ne.symm hid]

/-! ## Streams that are let in -/

/-- The streams that are let in: those that come before all sessions are told to end. -/
def admitted : List Mail → List Transport
  | [] => []
  | mail :: later => if mail.isCloseAll then [] else mail.stream?.toList ++ admitted later

def streamOf? (mails : List Mail) (id : ConnectionId) : Option Transport :=
  if id.value = 0 then none else (admitted mails)[id.value - 1]?

theorem admitted_append (mails : List Mail) (mail : Mail) :
    admitted (mails ++ [mail]) =
      admitted mails ++ if mails.any (·.isCloseAll) then [] else mail.stream?.toList := by
  induction mails with
  | nil =>
    rw [List.nil_append, admitted, admitted]
    split
    · rename_i hclose
      cases mail with
      | completion completion => cases hclose
      | request request => simp [Mail.stream?]
    · simp [admitted]
  | cons first mails ih =>
    rw [List.cons_append, admitted, admitted, ih, List.any_cons]
    cases first.isCloseAll with
    | true => simp
    | false => simp [List.append_assoc]

theorem streamOf?_append_of_none {mails : List Mail} {mail : Mail}
    (h : mails.any (·.isCloseAll) ∨ mail.stream? = none) (id : ConnectionId) :
    streamOf? (mails ++ [mail]) id = streamOf? mails id := by
  have hsame : admitted (mails ++ [mail]) = admitted mails := by
    rw [admitted_append]
    rcases h with h | h
    · rw [if_pos h, List.append_nil]
    · simp [h]
  rw [streamOf?, hsame, streamOf?]

theorem streamOf?_append_of_some {mails : List Mail} {mail : Mail} {transport : Transport}
    (h : mails.any (·.isCloseAll) = false) (ht : mail.stream? = some transport)
    (id : ConnectionId) :
    streamOf? (mails ++ [mail]) id =
      if id.value = (admitted mails).length + 1 then some transport else streamOf? mails id := by
  have hmore : admitted (mails ++ [mail]) = admitted mails ++ [transport] := by
    rw [admitted_append, h, ht]
    rfl
  rw [streamOf?, hmore, streamOf?]
  by_cases hzero : id.value = 0
  · rw [if_pos hzero, if_pos hzero, if_neg (by omega)]
  · rw [if_neg hzero, if_neg hzero, List.getElem?_append]
    by_cases hnext : id.value = (admitted mails).length + 1
    · rw [if_pos hnext, if_neg (by omega)]
      simp [hnext]
    · rw [if_neg hnext]
      split
      · rfl
      · rw [List.getElem?_eq_none (by simp; omega), List.getElem?_eq_none (by omega)]

theorem streamOf?_eq_none {mails : List Mail} {id : ConnectionId}
    (h : (admitted mails).length < id.value) : streamOf? mails id = none := by
  rw [streamOf?, if_neg (by omega), List.getElem?_eq_none (by omega)]

/-! ## Courses -/

/-- What has happened to an engine. -/
structure Course where
  engine : Engine
  /-- The operations in flight, the one that was begun first in front. -/
  inFlight : List Operation
  effects : List Effect

namespace Course

def start (limit : Nat) : Course := ⟨.new limit, [], []⟩

/-- Whether a piece of mail may come: the end of an operation only if such an operation is in
flight. -/
def Admits (s : Course) (mail : Mail) : Prop :=
  ∀ id errand, mail.errand? = some (id, errand) → errand.isEnd → ∃ o ∈ s.inFlight, mail.ends o

instance (s : Course) (mail : Mail) : Decidable (s.Admits mail) :=
  decidable_of_iff
    (∀ named, mail.errand? = some named → named.2.isEnd → ∃ o ∈ s.inFlight, mail.ends o)
    ⟨fun h id errand => h (id, errand), fun h named => h named.1 named.2⟩

def after (s : Course) (mail : Mail) : Course :=
  let (engine, effects) := s.engine.dispatch mail
  ⟨engine, s.inFlight.eraseP mail.ends ++ begun effects, s.effects ++ effects⟩

def AdmitsAll (s : Course) : List Mail → Prop
  | [] => True
  | mail :: later => s.Admits mail ∧ (s.after mail).AdmitsAll later

instance decidableAdmitsAll :
    (s : Course) → (mails : List Mail) → Decidable (s.AdmitsAll mails)
  | _, [] => inferInstanceAs (Decidable True)
  | s, mail :: later =>
    have := (s.after mail).decidableAdmitsAll later
    inferInstanceAs (Decidable (s.Admits mail ∧ (s.after mail).AdmitsAll later))

end Course

/-- The courses that there are, with the mail that was handled. -/
inductive Reached (limit : Nat) : List Mail → Course → Prop
  | start : Reached limit [] (.start limit)
  | mail {mails : List Mail} {s : Course} {mail : Mail} :
      Reached limit mails s → s.Admits mail → Reached limit (mails ++ [mail]) (s.after mail)

theorem Reached.foldl {limit : Nat} {mails later : List Mail} {s : Course}
    (h : Reached limit mails s) (hlater : s.AdmitsAll later) :
    Reached limit (mails ++ later) (later.foldl Course.after s) := by
  induction later generalizing mails s with
  | nil => rwa [List.append_nil]
  | cons mail later ih =>
    rw [← List.singleton_append, ← List.append_assoc]
    exact ih (h.mail hlater.1) hlater.2

theorem reached_foldl {limit : Nat} {mails : List Mail}
    (h : (Course.start limit).AdmitsAll mails) :
    Reached limit mails (mails.foldl Course.after (.start limit)) :=
  Reached.start.foldl h

def Mail.bring (transport : Transport) : Mail := .completion (.registered transport none .empty)

/-- A stream may always be brought, and anything be asked of the engine. -/
theorem reached_bring_request (limit : Nat) (transport : Transport) (request : Request) :
    Reached limit [.bring transport, .request request]
      (((Course.start limit).after (.bring transport)).after (.request request)) := by
  have hbring : Reached limit ([] ++ [.bring transport])
      ((Course.start limit).after (.bring transport)) := by
    refine .mail .start ?_
    intro id errand herrand
    cases herrand
  have hrequest : ((Course.start limit).after (.bring transport)).Admits (.request request) := by
    intro id errand herrand hend
    cases request <;> cases herrand <;> cases hend
  exact hbring.mail hrequest

/-- Handling mail and one piece more is handling that piece afterwards. -/
theorem Engine.run_append (e : Engine) (mails : List Mail) (mail : Mail) :
    e.run (mails ++ [mail]) =
      (((e.run mails).1.dispatch mail).1, (e.run mails).2 ++ ((e.run mails).1.dispatch mail).2) := by
  induction mails generalizing e with
  | nil => simp [run]
  | cons first mails ih => simp [run, ih, List.append_assoc]

namespace Reached

variable {limit : Nat} {mails : List Mail} {s : Course}

/-- The mail settles the course. -/
theorem eq_foldl (h : Reached limit mails s) : s = mails.foldl Course.after (.start limit) := by
  induction h with
  | start => rfl
  | mail _ _ ih => rw [List.foldl_append, ← ih, List.foldl_cons, List.foldl_nil]

/-- The engine of a course has run on the mail, and its effects are those of the course. -/
theorem run_eq (h : Reached limit mails s) :
    (Engine.new limit).run mails = (s.engine, s.effects) := by
  induction h with
  | start => rfl
  | mail _ _ ih =>
    rw [Engine.run_append, ih]
    rfl

theorem numbered (h : Reached limit mails s) : s.engine.table.Numbered := by
  induction h with
  | start => exact Table.numbered_new limit
  | mail _ _ ih => exact Engine.numbered_dispatch ih _

theorem limit_eq (h : Reached limit mails s) : s.engine.table.limit = limit := by
  induction h with
  | start => rfl
  | mail h _ ih => exact (Engine.limit_dispatch h.numbered _).trans ih

theorem stopping_eq (h : Reached limit mails s) :
    s.engine.stopping = mails.any (·.isCloseAll) := by
  induction h with
  | start => rfl
  | mail h _ ih =>
    rw [List.any_append, ← ih, List.any_cons, List.any_nil, Bool.or_false]
    exact Engine.stopping_dispatch h.numbered _

/-- The numbers given out are as many as the streams that were let in. -/
theorem lastId_eq (h : Reached limit mails s) :
    s.engine.table.lastId = (admitted mails).length := by
  induction h with
  | start => rfl
  | mail h _ ih =>
    rw [admitted_append, List.length_append, ← ih, ← h.stopping_eq]
    refine (Engine.lastId_dispatch h.numbered _).trans ?_
    split <;> rfl

end Reached

end WebSocket
