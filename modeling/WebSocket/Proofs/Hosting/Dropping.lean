import Mathlib.Data.List.Forall2
import Mathlib.Data.List.Nodup
import WebSocket.Proofs.Hosting.Numbers

/-!
# Dropping

Connections are dropped by requests, all together, and by what comes of their own operations.  After
the first drop a session is over (`Course.Over`): nothing is told, queued or begun any more, and
further requests change nothing.  Only the ends of the operations that were in flight at the drop
are left to be met, each of them once, and with the last one the connection leaves the table.

So dropping twice is dropping once, and in which order connections are dropped makes no difference
to any of them (`Engine.dropAll_perm`).  `Reached.dismisses` puts this together.
-/

namespace WebSocket

/-! ## The order of drops -/

theorem Table.Numbered.mem_iff {table : Table} (h : table.Numbered)
    {entry : ConnectionId × Connection} :
    entry ∈ table.entries ↔ table.find? entry.1 = some entry.2 :=
  ⟨Table.find?_of_mem h.nodup_ids, Table.mem_of_find?⟩

theorem Table.Numbered.pairwise_entries {table : Table} (h : table.Numbered) :
    table.entries.Pairwise fun a b => a.1.value < b.1.value := by
  have hascending := h.ascending
  rwa [Table.ids, List.pairwise_map] at hascending

/-- A numbered table is settled by what stands under each number. -/
theorem Table.Numbered.ext {table table' : Table} (h : table.Numbered) (h' : table'.Numbered)
    (hlast : table.lastId = table'.lastId) (hlimit : table.limit = table'.limit)
    (hfind : ∀ id, table.find? id = table'.find? id) : table = table' := by
  have hmem (entry : ConnectionId × Connection) :
      entry ∈ table.entries ↔ entry ∈ table'.entries := by
    rw [h.mem_iff, h'.mem_iff, hfind]
  have hperm : table.entries.Perm table'.entries :=
    (List.perm_ext_iff_of_nodup (.of_map _ h.nodup_ids) (.of_map _ h'.nodup_ids)).mpr hmem
  have hentries : table.entries = table'.entries := by
    refine hperm.eq_of_pairwise ?_ h.pairwise_entries h'.pairwise_entries
    intro entry entry' _ _ hlt hlt'
    omega
  obtain ⟨lastId, limit, entries⟩ := table
  cases hlast
  cases hlimit
  cases hentries
  rfl

namespace Engine

variable {e : Engine} {ids ids' : List ConnectionId}

/-- The order in which connections are dropped makes no difference to the engine, nor to what
happens to any one of them. -/
theorem dropAll_perm (h : e.table.Numbered) (hids : ids.Nodup) (hperm : ids.Perm ids') :
    (e.dropAll ids).1 = (e.dropAll ids').1 ∧
      ∀ id, effectsOn id (e.dropAll ids).2 = effectsOn id (e.dropAll ids').2 := by
  -- Every connection is met by its own drop only, at whatever place in the list that stands.
  have hagrees (id : ConnectionId) :
      (e.dropAll ids).1.table.find? id = (e.dropAll ids').1.table.find? id ∧
        effectsOn id (e.dropAll ids).2 = effectsOn id (e.dropAll ids').2 := by
    have hfirst := agrees_dropAll h ids hids id
    have hother := agrees_dropAll h ids' (hperm.nodup_iff.mp hids) id
    simp only [hperm.mem_iff] at hfirst
    exact ⟨hfirst.found.trans hother.found.symm, hfirst.felt.trans hother.felt.symm⟩
  refine ⟨?_, fun id => (hagrees id).2⟩
  have hkeeps := keeps_dropAll h ids
  have hkeeps' := keeps_dropAll h ids'
  have htable : (e.dropAll ids).1.table = (e.dropAll ids').1.table :=
    (numbered_dropAll h ids).ext (numbered_dropAll h ids')
      (hkeeps.lastId.trans hkeeps'.lastId.symm) (hkeeps.limit.trans hkeeps'.limit.symm)
      fun id => (hagrees id).1
  have hstopping := hkeeps.stopping.trans hkeeps'.stopping.symm
  generalize (e.dropAll ids).1 = one at htable hstopping
  obtain ⟨table, stopping⟩ := one
  cases htable
  cases hstopping
  rfl

/-- Nothing begins with a drop. -/
theorem begun_drop (h : e.table.Numbered) (id : ConnectionId) : begun (e.drop id).2 = [] := by
  refine begun_eq_nil fun other => ?_
  rw [(agrees_drop h id other).felt]
  split
  · cases e.table.find? other with
    | none => rfl
    | some c =>
      show begun (effectsOn other c.dropped.2) = []
      rw [begun_effectsOn, c.begun_dropped]
      rfl
  · rfl

end Engine

/-! ## Ends of the operations of a connection -/

/-- Whether the mail is the end of an operation of the connection. -/
def Mail.endsFor (id : ConnectionId) (mail : Mail) : Bool := (mail.errandFor? id).any (·.isEnd)

theorem Mail.endsFor_of_ends {mail : Mail} {o : Operation} (h : mail.ends o = true) :
    mail.endsFor o.id = true := by
  rw [ends, Option.any_eq_true] at h
  obtain ⟨errand, herrand, hends⟩ := h
  rw [endsFor, herrand]
  exact Errand.isEnd_of_ends hends

/-- The end of an operation of a connection comes only if such an operation is in flight. -/
theorem Course.Admits.exists_ended {s : Course} {mail : Mail} {id : ConnectionId}
    (h : s.Admits mail) (hend : mail.endsFor id = true) :
    ∃ o ∈ s.operationsOf id, mail.ends o = true := by
  obtain ⟨errand, herrand, hisEnd⟩ := Option.any_eq_true .. |>.mp hend
  rcases mail.kinds with ⟨transport, peer, leftover, rfl⟩ | rfl | ⟨other, errand', hmail⟩
  · cases herrand
  · cases herrand
    cases hisEnd
  · have hfor := herrand
    rw [mail.errandFor?_of_errand hmail] at hfor
    split at hfor
    · cases hfor
      obtain ⟨o, hmem, hends⟩ := h other errand hmail hisEnd
      have hid := hends
      rw [mail.ends_of_errandFor herrand, Bool.and_eq_true] at hid
      exact ⟨o, List.mem_filter.mpr ⟨hmem, hid.2⟩, hends⟩
    · cases hfor

/-- The end of an operation of a connection takes it from those in flight. -/
theorem Course.operationsOf_after {s : Course} {mail : Mail} {id : ConnectionId}
    (hbegun : begun (effectsOn id (s.engine.dispatch mail).2) = []) :
    (s.after mail).operationsOf id = (s.operationsOf id).eraseP mail.ends := by
  show (s.inFlight.eraseP mail.ends ++ begun (s.engine.dispatch mail).2).filter (·.id = id) =
    (s.inFlight.filter (·.id = id)).eraseP mail.ends
  rw [List.filter_append, ← begun_effectsOn, hbegun, List.append_nil]
  cases herrand : mail.errandFor? id with
  | none =>
    have hnot := mail.not_ends_of_errandFor herrand
    rw [filter_eraseP_of_not hnot, List.eraseP_of_forall_not]
    intro o hmem hends
    exact absurd ((List.mem_filter.mp hmem).2.symm.trans (hnot o hends)) (by decide)
  | some errand =>
    rw [List.eraseP_filter]
    congr 2
    funext o
    rw [mail.ends_of_errandFor herrand, Bool.and_assoc, Bool.and_self]

/-- Whether no session can begin under a number any more. -/
def NeverNext (mails : List Mail) (id : ConnectionId) : Prop :=
  mails.any (·.isCloseAll) = true ∨ ∃ transport, streamOf? mails id = some transport

/-! ## Sessions that are over -/

/-- The session of a connection was over at one point of a course, and more mail has come since. -/
structure Course.Over (closing : Course) (id : ConnectionId) (later : List Mail) (last : Course) :
    Prop where
  /-- Nothing has been told, queued, begun or given up for the connection since. -/
  silent : effectsOn id last.effects = effectsOn id closing.effects
  send : ∀ message loan, last.after (.request (.send id message loan)) = last
  drop : last.after (.request (.drop id)) = last
  /-- The operations that were in flight have been ended one by one, or still are in flight. -/
  pending : ∃ ended, (closing.operationsOf id).Perm (ended ++ last.operationsOf id) ∧
    List.Forall₂ (fun mail o => mail.ends o = true) (later.filter (·.endsFor id)) ended
  distinct : (closing.operationsOf id).Nodup
  /-- Only the end of one of them can change the connection. -/
  change : ∀ mail, last.Admits mail →
    (last.after mail).engine.table.find? id ≠ last.engine.table.find? id →
      ∃ o ∈ last.operationsOf id, mail.ends o = true ∧
        (last.operationsOf id).Perm (o :: (last.after mail).operationsOf id)
  /-- The connection leaves the table with the last of them. -/
  gone : last.engine.table.find? id = none ↔ last.operationsOf id = []

/-- What comes of dropping connections. -/
structure Course.Dismisses (s : Course) : Prop where
  /-- Dropping a connection again changes nothing. -/
  again : ∀ id, (s.after (.request (.drop id))).after (.request (.drop id)) =
    s.after (.request (.drop id))
  /-- Dropping all connections again is reported, and that is all. -/
  closeAgain : (s.after (.request .closeAll)).after (.request .closeAll) =
    { s.after (.request .closeAll) with
      effects := (s.after (.request .closeAll)).effects ++
        [.report (.closingAll (s.after (.request .closeAll)).engine.table.size)] }
  /-- A drop neither begins nor ends an operation. -/
  inFlight : ∀ id, (s.after (.request (.drop id))).inFlight = s.inFlight
  closeInFlight : (s.after (.request .closeAll)).inFlight = s.inFlight
  /-- A number that has not been given out names no connection. -/
  unknown : ∀ id, id ∉ openings s.effects → s.after (.request (.drop id)) = s ∧
    ∀ message loan, s.after (.request (.send id message loan)) = s
  dropped : ∀ id ∈ openings s.effects, ∀ later last,
    (s.after (.request (.drop id))).Onward later last →
      (s.after (.request (.drop id))).Over id later last
  closed : ∀ id later last, (s.after (.request .closeAll)).Onward later last →
    (s.after (.request .closeAll)).Over id later last
  /-- The order in which connections are dropped makes no difference to any of them. -/
  commutes : ∀ a b,
    let ab := (s.after (.request (.drop a))).after (.request (.drop b))
    let ba := (s.after (.request (.drop b))).after (.request (.drop a))
    ab.engine = ba.engine ∧ ab.inFlight = ba.inFlight ∧
      ∀ id, effectsOn id ab.effects = effectsOn id ba.effects

namespace Reached

variable {limit : Nat} {mails later : List Mail} {s last : Course} {mail : Mail}
  {id : ConnectionId}

/-! ## After a drop -/

/-- Only the end of an operation changes a closed connection. -/
theorem find?_of_closed (h : Reached limit mails s)
    (hshut : isOpen (s.engine.table.find? id) = false)
    (hsame : streamOf? (mails ++ [mail]) id = streamOf? mails id) (hend : mail.endsFor id = false) :
    (s.after mail).engine.table.find? id = s.engine.table.find? id := by
  refine (h.agrees_of_same hsame).found.trans ?_
  cases hc : s.engine.table.find? id with
  | none => rfl
  | some c =>
    cases herrand : mail.errandFor? id with
    | none => rw [Engine.meet_none]
    | some errand =>
      obtain ⟨transport, l, -, -, hsound, -⟩ := h.sound hc
      rw [hc, isOpen_some, Bool.not_eq_false'] at hshut
      rw [Mail.endsFor, herrand] at hend
      rw [Engine.meet, Connection.attend_of_waiting hshut hsound.not_removable hend]

/-- No operation is in flight twice. -/
theorem nodup_operationsOf (h : Reached limit mails s) (id : ConnectionId) :
    (s.operationsOf id).Nodup := by
  obtain ⟨hreads, hwrites⟩ := h.single id
  rw [s.readsOf_eq] at hreads
  rw [s.writesOf_eq] at hwrites
  refine List.nodup_iff_count_le_one.mpr fun o => ?_
  cases hread : o.isRead with
  | true =>
    have hcount : (reads (s.operationsOf id)).count o = (s.operationsOf id).count o :=
      List.count_filter hread
    exact hcount.symm.trans_le (List.count_le_length.trans hreads)
  | false =>
    have hcount : (writes (s.operationsOf id)).count o = (s.operationsOf id).count o :=
      List.count_filter (by rw [hread]; rfl)
    exact hcount.symm.trans_le (List.count_le_length.trans hwrites)

/-- What a piece of mail takes from the operations of a closed connection. -/
theorem perm_of_ends (h : Reached limit mails s)
    (hshut : isOpen (s.engine.table.find? id) = false)
    (hsame : streamOf? (mails ++ [mail]) id = streamOf? mails id) (hadmits : s.Admits mail)
    (hend : mail.endsFor id = true) :
    ∃ o ∈ s.operationsOf id, mail.ends o = true ∧
      (s.operationsOf id).Perm (o :: (s.after mail).operationsOf id) := by
  obtain ⟨-, hfelt⟩ := h.still_of_closed hshut hsame
  obtain ⟨_, hmem, hends⟩ := hadmits.exists_ended hend
  obtain ⟨o, before, behind, -, ho, hsplit, herased⟩ := List.exists_of_eraseP hmem hends
  have hafter : (s.after mail).operationsOf id = before ++ behind :=
    (Course.operationsOf_after (by rw [hfelt]; rfl)).trans herased
  rw [hafter, hsplit]
  exact ⟨o, by simp, ho, List.perm_middle⟩

theorem operationsOf_of_closed (h : Reached limit mails s)
    (hshut : isOpen (s.engine.table.find? id) = false)
    (hsame : streamOf? (mails ++ [mail]) id = streamOf? mails id) (hend : mail.endsFor id = false) :
    (s.after mail).operationsOf id = s.operationsOf id := by
  obtain ⟨-, hfelt⟩ := h.still_of_closed hshut hsame
  rw [Course.operationsOf_after (by rw [hfelt]; rfl), List.eraseP_of_forall_not]
  intro o hmem hends
  have hid : o.id = id := of_decide_eq_true (List.mem_filter.mp hmem).2
  rw [← hid, Mail.endsFor_of_ends hends] at hend
  cases hend

/-- A number under which no session can begin any more stays so. -/
theorem neverNext_mail (h : Reached limit mails s) (hnever : NeverNext mails id) (mail : Mail) :
    streamOf? (mails ++ [mail]) id = streamOf? mails id ∧ NeverNext (mails ++ [mail]) id := by
  rcases hnever with hclosed | ⟨transport, hstream⟩
  · refine ⟨streamOf?_append_of_none (.inl hclosed) id, .inl ?_⟩
    rw [List.any_append, hclosed, Bool.true_or]
  · have hkept := (h.step_of_known mail hstream).1
    exact ⟨hkept.trans hstream.symm, .inr ⟨transport, hkept⟩⟩

/-- After the end of a session nothing happens to its connection but the ends of the operations that
were in flight. -/
theorem over_onward (h : Reached limit mails s) (hnever : NeverNext mails id)
    (hshut : isOpen (s.engine.table.find? id) = false) (hlater : s.Onward later last) :
    NeverNext (mails ++ later) id ∧ isOpen (last.engine.table.find? id) = false ∧
      effectsOn id last.effects = effectsOn id s.effects ∧
      ∃ ended, (s.operationsOf id).Perm (ended ++ last.operationsOf id) ∧
        List.Forall₂ (fun mail o => mail.ends o = true) (later.filter (·.endsFor id)) ended := by
  -- A further piece of mail ends one more of the operations, or it is nothing to the connection.
  induction hlater with
  | here => exact ⟨(List.append_nil mails).symm ▸ hnever, hshut, rfl, [], .refl _, .nil⟩
  | @mail later s' mail hlater hadmits ih =>
    obtain ⟨hnever', hshut', hsilent, ended, hperm, hends⟩ := ih
    have hreached := h.append hlater
    obtain ⟨hsame, hnever''⟩ := hreached.neverNext_mail hnever' mail
    obtain ⟨hshut'', hfelt⟩ := hreached.still_of_closed hshut' hsame
    refine ⟨(List.append_assoc ..).symm ▸ hnever'', hshut'', ?_, ?_⟩
    · show effectsOn id (s'.effects ++ (s'.engine.dispatch mail).2) = _
      rw [effectsOn_append, hfelt, hsilent, List.append_nil]
    · rw [List.filter_append]
      cases hend : mail.endsFor id with
      | false =>
        refine ⟨ended, ?_, ?_⟩
        · rwa [hreached.operationsOf_of_closed hshut' hsame hend]
        · rwa [List.filter_cons_of_neg (by rw [hend]; decide), List.filter_nil, List.append_nil]
      | true =>
        obtain ⟨o, -, ho, htaken⟩ := hreached.perm_of_ends hshut' hsame hadmits hend
        refine ⟨ended ++ [o], ?_, ?_⟩
        · rw [List.append_assoc]
          exact hperm.trans (htaken.append_left ended)
        · rw [List.filter_cons_of_pos hend]
          exact List.rel_append hends (.cons ho .nil)

/-- Once a connection is closed its session is over. -/
theorem over_of_shut (h : Reached limit mails s) (hnever : NeverNext mails id)
    (hshut : isOpen (s.engine.table.find? id) = false) (hlater : s.Onward later last) :
    s.Over id later last := by
  obtain ⟨hnever', hshut', hsilent, hpending⟩ := h.over_onward hnever hshut hlater
  have hreached := h.append hlater
  exact {
    silent := hsilent
    send := fun message loan =>
      Course.after_of_nothing (hreached.dispatch_of_closed hshut' rfl rfl) rfl
    drop := Course.after_of_nothing (hreached.dispatch_of_closed hshut' rfl rfl) rfl
    pending := hpending
    distinct := h.nodup_operationsOf id
    change := by
      intro mail hadmits hchange
      have hsame := (hreached.neverNext_mail hnever' mail).1
      refine hreached.perm_of_ends hshut' hsame hadmits ?_
      by_contra hend
      exact hchange (hreached.find?_of_closed hshut' hsame (Bool.not_eq_true _ ▸ hend))
    gone := hreached.gone_iff hshut' }

/-! ## Dropping twice, and in any order -/

theorem drop (h : Reached limit mails s) (id : ConnectionId) :
    Reached limit (mails ++ [.request (.drop id)]) (s.after (.request (.drop id))) := by
  refine h.mail ?_
  rintro _ _ ⟨⟩ ⟨⟩

theorem shut_drop (h : Reached limit mails s) (id : ConnectionId) :
    isOpen ((s.after (.request (.drop id))).engine.table.find? id) = false := by
  show isOpen ((s.engine.drop id).1.table.find? id) = false
  rw [(Engine.agrees_drop h.numbered id id).found, if_pos rfl]
  cases s.engine.table.find? id with
  | none => rfl
  | some c => exact c.isOpen_dropped

theorem inFlight_drop (h : Reached limit mails s) (id : ConnectionId) :
    (s.after (.request (.drop id))).inFlight = s.inFlight := by
  have hbegun : begun (s.engine.dispatch (.request (.drop id))).2 = [] :=
    Engine.begun_drop h.numbered id
  rw [inFlight_of_begun hbegun, Mail.eraseP_of_not_end rfl]

theorem closeAll_again (h : Reached limit mails s) (hshut : s.engine.Shut) :
    s.after (.request .closeAll) =
      { s with effects := s.effects ++ [.report (.closingAll s.engine.table.size)] } := by
  rw [Course.after, h.closeAll_of_shut hshut, Mail.eraseP_of_not_end rfl]
  simp [begun]

/-- Two connections may be dropped in either order. -/
theorem drop_comm (h : Reached limit mails s) (a b : ConnectionId) :
    let ab := (s.after (.request (.drop a))).after (.request (.drop b))
    let ba := (s.after (.request (.drop b))).after (.request (.drop a))
    ab.engine = ba.engine ∧ ab.inFlight = ba.inFlight ∧
      ∀ id, effectsOn id ab.effects = effectsOn id ba.effects := by
  intro ab ba
  have hflight : ab.inFlight = ba.inFlight :=
    ((h.drop a).inFlight_drop b).trans <| (h.inFlight_drop a).trans <|
      (h.inFlight_drop b).symm.trans ((h.drop b).inFlight_drop a).symm
  rcases eq_or_ne a b with rfl | hne
  · exact ⟨rfl, rfl, fun _ => rfl⟩
  · have hids : [a, b].Nodup := by simpa using hne
    obtain ⟨hengine, hfelt⟩ := Engine.dropAll_perm h.numbered hids (List.Perm.swap b a [])
    refine ⟨hengine, hflight, fun id => ?_⟩
    have hmore := hfelt id
    simp only [Engine.dropAll, List.append_nil] at hmore
    show effectsOn id (s.effects ++ (s.engine.drop a).2 ++ ((s.engine.drop a).1.drop b).2) =
      effectsOn id (s.effects ++ (s.engine.drop b).2 ++ ((s.engine.drop b).1.drop a).2)
    rw [List.append_assoc, List.append_assoc, effectsOn_append, hmore, ← effectsOn_append]

/-- Whenever connections are dropped, they are dropped once and for all. -/
theorem dismisses (h : Reached limit mails s) : s.Dismisses := by
  have hclosed : Reached limit (mails ++ [.request .closeAll]) (s.after (.request .closeAll)) :=
    h.mail nofun
  exact {
    again := fun id =>
      Course.after_of_nothing ((h.drop id).dispatch_of_closed (h.shut_drop id) rfl rfl) rfl
    closeAgain := hclosed.closeAll_again h.shut_closeAll
    inFlight := h.inFlight_drop
    closeInFlight := by rw [inFlight_of_begun h.begun_closeAll, Mail.eraseP_of_not_end rfl]
    unknown := by
      intro id hunknown
      rw [h.mem_openings_iff, not_exists, ← Option.eq_none_iff_forall_ne_some] at hunknown
      have hnone := (h.nothing_of_unknown hunknown).1
      exact ⟨after_of_absent hnone rfl rfl, fun message loan => after_of_absent hnone rfl rfl⟩
    dropped := by
      intro id hknown later last hlater
      obtain ⟨transport, hstream⟩ := h.mem_openings_iff.mp hknown
      have hnever := (h.neverNext_mail (.inr ⟨transport, hstream⟩) (.request (.drop id))).2
      exact (h.drop id).over_of_shut hnever (h.shut_drop id) hlater
    closed := by
      intro id later last hlater
      have hnever : NeverNext (mails ++ [.request .closeAll]) id := .inl (by simp [Mail.isCloseAll])
      exact hclosed.over_of_shut hnever (h.shut_closeAll.closed id) hlater
    commutes := h.drop_comm }

/-- Of two connections that read, one is dropped: it leaves with the end of its read, and it makes
no difference which of them is dropped first. -/
theorem dismisses_reading :
    ∃ s last, Reached 8 [.bring 0, .bring 1] s ∧
      (s.after (.request (.drop ⟨1⟩))).Onward
        [.completion (.read ⟨1⟩ 0 .empty (.error .aborted))] last ∧
      last.engine.table.find? ⟨1⟩ = none ∧
      last.after (.request (.send ⟨1⟩ (.text "late") none)) = last ∧
      ((s.after (.request (.drop ⟨1⟩))).after (.request (.drop ⟨2⟩))).engine =
        ((s.after (.request (.drop ⟨2⟩))).after (.request (.drop ⟨1⟩))).engine := by
  have hreached : Reached 8 [.bring 0, .bring 1] _ := reached_foldl (by decide +kernel)
  generalize hs : [Mail.bring 0, .bring 1].foldl Course.after (Course.start 8) = s at hreached
  have hknown : ⟨1⟩ ∈ openings s.effects := by subst hs; decide +kernel
  have hadmits : (s.after (.request (.drop ⟨1⟩))).Admits
      (.completion (.read ⟨1⟩ 0 .empty (.error .aborted))) := by subst hs; decide +kernel
  have hlater := Course.Onward.here.mail hadmits
  have hdismisses := hreached.dismisses
  have hover := hdismisses.dropped ⟨1⟩ hknown _ _ hlater
  refine ⟨s, _, hreached, hlater, hover.gone.mpr ?_, hover.send _ _, (hdismisses.commutes _ _).1⟩
  subst hs
  decide +kernel

end Reached

end WebSocket
