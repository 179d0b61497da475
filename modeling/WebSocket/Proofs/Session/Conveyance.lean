import Mathlib.Data.List.Induction
import WebSocket.Proofs.Session.Ownership

/-!
# Octets that are conveyed

A read takes the input of a connection away, adds octets of the stream to it and brings it back.
Courses in which every read that goes well does so are `Conveyed`; how a stream is cut into reads is
free.  What a client has said by some point is then what was left over when its stream was let in
and after that the octets of all reads (`heard`).

In a conveyed course, a connection lives by just the errands that the mail after its beginning holds
for it (`Conveyed.livedBy`).
-/

namespace WebSocket

/-! ## Reads -/

namespace Errand

def isRead : Errand → Bool
  | read .. => true
  | write .. | send .. | drop => false

def octets : Errand → Bytes
  | read _ input (.ok n) => input.toList.drop (input.toList.length - n)
  | read _ _ (.error _) | write .. | send .. | drop => []

/-- What the end of an operation brings back is what the operation took away, and after that as many
octets as it counts. -/
def Conveys : Errand → Operation → Prop
  | read _ input (.ok n), .read _ _ taken =>
    taken.toList <+: input.toList ∧ input.toList.length = taken.toList.length + n
  | _, _ => True

/-- The input is what was taken away and the octets that were added. -/
theorem Conveys.input_eq {id : ConnectionId} {reader taker : Transport}
    {input taken : ReceiveBuffer} {n : Nat}
    (h : (read reader input (.ok n)).Conveys (.read id taker taken)) :
    input.toList = taken.toList ++ (read reader input (.ok n)).octets := by
  obtain ⟨⟨added, hadded⟩, hlength⟩ := h
  have hcount : input.toList.length - n = taken.toList.length := by omega
  rw [octets, hcount, ← hadded, List.drop_left]

theorem octets_of_not_read {errand : Errand} (h : errand.isRead = false) : errand.octets = [] := by
  cases errand with
  | read => cases h
  | _ => rfl

end Errand

/-- What a client has said, from the octets that were left over at the beginning to those of the
last errand. -/
def heard (leftover : ReceiveBuffer) (errands : List Errand) : Bytes :=
  leftover.toList ++ errands.flatMap (·.octets)

theorem heard_nil (leftover : ReceiveBuffer) : heard leftover [] = leftover.toList :=
  List.append_nil _

theorem heard_append (leftover : ReceiveBuffer) (errands : List Errand) (errand : Errand) :
    heard leftover (errands ++ [errand]) = heard leftover errands ++ errand.octets := by
  simp [heard]

/-! ## Conveyed courses -/

/-- A piece of mail conveys what it brings back. -/
def Course.Conveys (s : Course) (mail : Mail) : Prop :=
  ∀ o ∈ s.inFlight, ∀ errand, mail.errandFor? o.id = some errand → errand.ends o → errand.Conveys o

/-- The courses in which all reads convey their octets. -/
inductive Conveyed (limit : Nat) : List Mail → Course → Prop
  | start : Conveyed limit [] (.start limit)
  | mail {mails : List Mail} {s : Course} {mail : Mail} :
      Conveyed limit mails s → s.Admits mail → s.Conveys mail →
      Conveyed limit (mails ++ [mail]) (s.after mail)

theorem Conveyed.reached {limit : Nat} {mails : List Mail} {s : Course}
    (h : Conveyed limit mails s) : Reached limit mails s := by
  induction h with
  | start => exact .start
  | mail _ hadmits _ ih => exact ih.mail hadmits

/-! ## Beginnings -/

/-- In some mail a stream is let in under a number, with octets that were read before, and `later`
is the mail after that. -/
inductive LetIn : List Mail → ConnectionId → Transport → ReceiveBuffer → List Mail → Prop
  | intro {earlier later : List Mail} {transport : Transport} {peer : Option SocketAddress}
      {leftover : ReceiveBuffer} : earlier.any (·.isCloseAll) = false →
      LetIn (earlier ++ .completion (.registered transport peer leftover) :: later)
        ⟨(admitted earlier).length + 1⟩ transport leftover later

theorem admitted_append_of_open {earlier : List Mail} (h : earlier.any (·.isCloseAll) = false)
    (later : List Mail) : admitted (earlier ++ later) = admitted earlier ++ admitted later := by
  induction earlier with
  | nil => rfl
  | cons mail earlier ih =>
    rw [List.any_cons, Bool.or_eq_false_iff] at h
    rw [List.cons_append, admitted, admitted, if_neg (by simp [h.1]), if_neg (by simp [h.1]),
      ih h.2, List.append_assoc]

namespace LetIn

variable {mails later : List Mail} {mail : Mail} {id : ConnectionId} {transport : Transport}
  {leftover : ReceiveBuffer}

theorem streamOf?_eq (h : LetIn mails id transport leftover later) :
    streamOf? mails id = some transport := by
  obtain ⟨hopen⟩ := h
  rename_i earlier peer
  have hadmitted :
      admitted (earlier ++ .completion (.registered transport peer leftover) :: later) =
        admitted earlier ++ transport :: admitted later := by
    rw [admitted_append_of_open hopen, admitted, if_neg (by simp [Mail.isCloseAll])]
    rfl
  rw [streamOf?, if_neg (Nat.succ_ne_zero _), hadmitted, Nat.add_sub_cancel,
    List.getElem?_append_right (Nat.le_refl _), Nat.sub_self]
  rfl

/-- A stream is let in with the last piece of mail, or it has been let in before. -/
theorem append (h : LetIn (mails ++ [mail]) id transport leftover later) :
    (later = [] ∧ mails.any (·.isCloseAll) = false ∧ id.value = (admitted mails).length + 1 ∧
        ∃ peer, mail = .completion (.registered transport peer leftover)) ∨
      ∃ before, later = before ++ [mail] ∧ LetIn mails id transport leftover before := by
  generalize hall : mails ++ [mail] = all at h
  obtain @⟨earlier, later, transport, peer, leftover, hopen⟩ := h
  rcases List.eq_nil_or_concat later with rfl | ⟨before, last, rfl⟩
  · obtain ⟨rfl, hmail⟩ := List.append_inj' hall rfl
    cases hmail
    exact .inl ⟨rfl, hopen, rfl, peer, rfl⟩
  · have hsplit : mails ++ [mail] =
        (earlier ++ .completion (.registered transport peer leftover) :: before) ++ [last] := by
      rw [hall]
      simp
    obtain ⟨rfl, hmail⟩ := List.append_inj' hsplit rfl
    cases hmail
    exact .inr ⟨before, by simp, .intro hopen⟩

theorem ne_nil (h : LetIn mails id transport leftover later) : mails ≠ [] := by
  obtain ⟨hopen⟩ := h
  exact List.append_ne_nil_of_right_ne_nil _ (List.cons_ne_nil _ _)

theorem isSuffix (h : LetIn mails id transport leftover later) : later <:+ mails := by
  obtain ⟨hopen⟩ := h
  exact (List.suffix_cons _ later).trans (List.suffix_append _ _)

theorem extend (h : LetIn mails id transport leftover later) (mail : Mail) :
    LetIn (mails ++ [mail]) id transport leftover (later ++ [mail]) := by
  obtain ⟨hopen⟩ := h
  rw [List.append_assoc, List.cons_append]
  exact .intro hopen

end LetIn

/-- Every stream that was let in was let in at some point. -/
theorem exists_letIn {mails : List Mail} {id : ConnectionId} {transport : Transport}
    (h : streamOf? mails id = some transport) :
    ∃ leftover later, LetIn mails id transport leftover later := by
  induction mails using List.reverseRecOn with
  | nil =>
    unfold streamOf? at h
    split at h <;> cases h
  | append_singleton mails mail ih =>
    have hbefore (h : streamOf? mails id = some transport) :
        ∃ leftover later, LetIn (mails ++ [mail]) id transport leftover later := by
      obtain ⟨leftover, later, hin⟩ := ih h
      exact ⟨leftover, _, hin.extend mail⟩
    by_cases hbrings : mails.any (·.isCloseAll) = false ∧ ∃ brought, mail.stream? = some brought
    · obtain ⟨hopen, brought, hstream⟩ := hbrings
      rw [streamOf?_append_of_some hopen hstream] at h
      split at h
      · rename_i hid
        obtain rfl : brought = transport := Option.some.inj h
        unfold Mail.stream? at hstream
        split at hstream
        · rename_i transport peer leftover
          cases hstream
          obtain ⟨value⟩ := id
          obtain rfl : value = (admitted mails).length + 1 := hid
          exact ⟨leftover, [], .intro hopen⟩
        · cases hstream
      · exact hbefore h
    · refine hbefore ?_
      rw [← h]
      refine (streamOf?_append_of_none ?_ id).symm
      cases hclosing : mails.any (·.isCloseAll) with
      | true => exact .inl rfl
      | false =>
        refine .inr (Option.eq_none_iff_forall_ne_some.mpr fun brought hstream => ?_)
        exact hbrings ⟨hclosing, brought, hstream⟩

def errandsFor (id : ConnectionId) (mails : List Mail) : List Errand :=
  mails.filterMap (·.errandFor? id)

/-! ## Lives by errands -/

/-- An errand conveys what it brings back. -/
def Life.Conveys (l : Life) (errand : Errand) : Prop :=
  ∀ o ∈ l.inFlight, errand.ends o → errand.Conveys o

/-- The lives that there are of a connection, with the errands that it has run. -/
inductive LivedBy (c : Connection) : List Errand → Life → Prop
  | begin : LivedBy c [] (.begin c)
  | errand {errands : List Errand} {l : Life} {errand : Errand} :
      LivedBy c errands l → l.Admits errand → l.Conveys errand →
      LivedBy c (errands ++ [errand]) (l.after errand)

theorem LivedBy.lived {c : Connection} {errands : List Errand} {l : Life}
    (h : LivedBy c errands l) : Lived c l := by
  induction h with
  | begin => exact .begin
  | errand _ hadmits _ ih => exact ih.errand hadmits

/-- Mail that conveys in a course is an errand that conveys in the life. -/
theorem Course.Shows.conveys {s : Course} {id : ConnectionId} {l : Life} {mail : Mail}
    {errand : Errand} (h : s.Shows id l) (herrand : mail.errandFor? id = some errand)
    (hconveys : s.Conveys mail) : l.Conveys errand := by
  intro o hmem hends
  rw [← h.inFlight] at hmem
  obtain ⟨hflight, hid⟩ := List.mem_filter.mp hmem
  obtain rfl := of_decide_eq_true hid
  exact hconveys o hflight errand herrand hends

/-- A stream that is let in begins a life. -/
theorem Reached.shows_begin {limit : Nat} {mails : List Mail} {s : Course} {id : ConnectionId}
    (h : Reached limit mails s) (hopen : mails.any (·.isCloseAll) = false)
    (hid : id.value = (admitted mails).length + 1) (transport : Transport)
    (peer : Option SocketAddress) (leftover : ReceiveBuffer) :
    (s.after (.completion (.registered transport peer leftover))).Shows id
      (.begin (.new id transport peer leftover limit)) := by
  have hunknown : streamOf? mails id = none := streamOf?_eq_none (by omega)
  obtain ⟨hfound, hflight, hfelt⟩ := h.nothing_of_unknown hunknown
  have hstopping := h.stopping_eq
  rw [hopen] at hstopping
  have hagrees := Engine.agrees_register h.numbered hstopping transport peer leftover id
  rw [h.lastId_eq, h.limit_eq, if_pos hid] at hagrees
  have hnothing : s.Shows id ⟨none, [], []⟩ := ⟨hfound, hflight, hfelt⟩
  exact hnothing.begin rfl (Mail.not_ends_of_errandFor rfl) hagrees

/-- Mail leaves the life under a number as it is, or it takes it on by the errand that it holds. -/
theorem Reached.shows_after {limit : Nat} {mails : List Mail} {s : Course} {id : ConnectionId}
    {l : Life} (h : Reached limit mails s) {mail : Mail} (hadmits : s.Admits mail)
    {transport : Transport} (hstream : streamOf? mails id = some transport) (hs : s.Shows id l) :
    mail.errandFor? id = none ∧ (s.after mail).Shows id l ∨
      ∃ errand, mail.errandFor? id = some errand ∧ l.Admits errand ∧
        (s.after mail).Shows id (l.after errand) := by
  obtain ⟨-, hagrees⟩ := h.step_of_known mail hstream
  rw [hs.found] at hagrees
  cases herrand : mail.errandFor? id with
  | none =>
    rw [herrand, Engine.meet_none] at hagrees
    exact .inl ⟨rfl, hs.other (mail.not_ends_of_errandFor herrand) hagrees⟩
  | some errand =>
    rw [herrand] at hagrees
    exact .inr ⟨errand, rfl, hs.admits herrand hadmits,
      hs.errand herrand (h.confined_meet hs errand) hagrees⟩

/-- In a conveyed course a connection lives by the errands that the mail after its beginning holds
for it. -/
theorem Conveyed.livedBy {limit : Nat} {mails later : List Mail} {s : Course} {id : ConnectionId}
    {transport : Transport} {leftover : ReceiveBuffer} (h : Conveyed limit mails s)
    (hin : LetIn mails id transport leftover later) :
    ∃ peer l, LivedBy (.new id transport peer leftover limit) (errandsFor id later) l ∧
      s.Shows id l := by
  induction h generalizing later with
  | start => exact absurd rfl hin.ne_nil
  | @mail mails s mail h hadmits hconveys ih =>
    rcases hin.append with ⟨rfl, hopen, hid, peer, rfl⟩ | ⟨before, rfl, hbefore⟩
    · exact ⟨peer, _, .begin, h.reached.shows_begin hopen hid transport peer leftover⟩
    · obtain ⟨peer, l, hl, hs⟩ := ih hbefore
      rw [errandsFor, List.filterMap_append]
      rcases h.reached.shows_after hadmits hbefore.streamOf?_eq hs with
        ⟨hnone, hs'⟩ | ⟨errand, herrand, hadmits', hs'⟩
      · refine ⟨peer, l, ?_, hs'⟩
        rw [List.filterMap_cons_none hnone, List.filterMap_nil, List.append_nil]
        exact hl
      · refine ⟨peer, l.after errand, ?_, hs'⟩
        rw [List.filterMap_cons_some herrand, List.filterMap_nil]
        exact hl.errand hadmits' (hs.conveys herrand hconveys)

/-! ## Streams are free -/

theorem eq_of_length_le_one {α : Type} {xs : List α} (h : xs.length ≤ 1) {x y : α} (hx : x ∈ xs)
    (hy : y ∈ xs) : x = y := by
  match xs, h with
  | [only], _ => rw [List.mem_singleton.mp hx, List.mem_singleton.mp hy]

namespace Conveyed

variable {limit : Nat} {mails : List Mail} {s : Course}

/-- A stream may be brought with any octets that were read before. -/
theorem bring (h : Conveyed limit mails s) (transport : Transport) (peer : Option SocketAddress)
    (leftover : ReceiveBuffer) :
    Conveyed limit (mails ++ [.completion (.registered transport peer leftover)])
      (s.after (.completion (.registered transport peer leftover))) := by
  refine h.mail ?_ ?_
  · intro id errand herrand
    cases herrand
  · intro o _ errand herrand
    cases herrand

/-- A read in flight may end with any octets. -/
theorem hear (h : Conveyed limit mails s) {id : ConnectionId} {reader : Transport}
    {input taken : ReceiveBuffer} (hmem : .read id reader taken ∈ s.inFlight) {n : Nat}
    (hinput : taken.toList <+: input.toList)
    (hlength : input.toList.length = taken.toList.length + n) :
    Conveyed limit (mails ++ [.completion (.read id reader input (.ok n))])
      (s.after (.completion (.read id reader input (.ok n)))) := by
  have hmail : (Mail.completion (.read id reader input (.ok n))).errand? =
      some (id, .read reader input (.ok n)) := rfl
  refine h.mail ?_ ?_
  · intro other errand herrand _
    cases herrand
    refine ⟨_, hmem, ?_⟩
    rw [Mail.ends_of_errand hmail]
    simp [Operation.id, Errand.ends]
  · intro o hflight errand herrand hends
    rw [Mail.errandFor?_of_errand hmail] at herrand
    split at herrand
    · rename_i hid
      cases herrand
      cases o with
      | write => cases hends
      | read other taker taken' =>
        obtain rfl : id = other := hid
        -- One read is in flight for the connection, so it is the same.
        have hread {o : Operation} (hflight : o ∈ s.inFlight) (hid : o.id = id)
            (hread : o.isRead = true) : o ∈ s.readsOf id :=
          List.mem_filter.mpr ⟨hflight, by rw [hid, hread]; simp⟩
        have hsame := eq_of_length_le_one (h.reached.single id).1
          (hread hflight rfl rfl) (hread hmem rfl rfl)
        cases hsame
        exact ⟨hinput, hlength⟩
    · cases herrand

end Conveyed

end WebSocket
