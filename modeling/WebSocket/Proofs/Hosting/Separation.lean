import WebSocket.Proofs.Hosting.Telling

/-!
# Connections apart from each other

Mail regards a connection if it lets in a stream, tells all sessions to end, or names the
connection.  Whatever other mail comes, and wherever it comes in between, nothing changes for the
connection:

    Reached limit mails s →
      ∃ s', Reached limit (mails.filter (·.regards id)) s' ∧ s.Alike id s'     (Reached.apart)

So two runs with the same mail regarding a connection are alike for it, whatever happens to all
other connections meanwhile and whatever the application does (`Host.undisturbed`).
-/

namespace WebSocket

/-! ## Mail that regards a connection -/

/-- Whether a connection may have to do with the mail. -/
def Mail.regards (id : ConnectionId) : Mail → Bool
  | .completion (.registered ..) | .request .closeAll => true
  | .completion (.read other ..) | .completion (.write other ..) => other == id
  | .request (.send other ..) | .request (.drop other) => other == id

namespace Mail

variable {id : ConnectionId} {mail : Mail}

/-- Mail regards a connection that is let in with it, and a connection for which there is an errand
in it. -/
theorem regards_eq (id : ConnectionId) (mail : Mail) :
    mail.regards id = (mail.stream?.isSome || (mail.errandFor? id).isSome) := by
  rcases mail.kinds with ⟨transport, peer, leftover, rfl⟩ | rfl | ⟨other, errand, herrand⟩
  · rfl
  · rfl
  · have hnames : mail.regards id = (other == id) := by
      cases mail with
      | completion completion => cases completion <;> cases herrand <;> rfl
      | request request => cases request <;> cases herrand <;> rfl
    rw [hnames, mail.errandFor?_of_errand herrand, mail.stream?_of_errand herrand]
    by_cases hid : other = id <;> simp [hid]

theorem stream?_of_not_regards (h : mail.regards id = false) : mail.stream? = none := by
  rw [regards_eq, Bool.or_eq_false_iff] at h
  exact Option.not_isSome_iff_eq_none.mp (Bool.eq_false_iff.mp h.1)

theorem errandFor?_of_not_regards (h : mail.regards id = false) : mail.errandFor? id = none := by
  rw [regards_eq, Bool.or_eq_false_iff] at h
  exact Option.not_isSome_iff_eq_none.mp (Bool.eq_false_iff.mp h.2)

theorem isCloseAll_of_not_regards (h : mail.regards id = false) : mail.isCloseAll = false := by
  unfold isCloseAll
  split
  · cases h
  · rfl

end Mail

/-- Mail that does not regard a connection lets in no stream. -/
theorem admitted_filter (id : ConnectionId) (mails : List Mail) :
    admitted (mails.filter (·.regards id)) = admitted mails := by
  induction mails with
  | nil => rfl
  | cons mail mails ih =>
    cases hregards : mail.regards id with
    | true => rw [List.filter_cons_of_pos hregards, admitted, admitted, ih]
    | false =>
      rw [List.filter_cons_of_neg (by simp [hregards]), ih, admitted,
        mail.isCloseAll_of_not_regards hregards, mail.stream?_of_not_regards hregards]
      rfl

theorem any_isCloseAll_filter (id : ConnectionId) (mails : List Mail) :
    (mails.filter (·.regards id)).any (·.isCloseAll) = mails.any (·.isCloseAll) := by
  rw [List.any_filter]
  refine List.any_congr rfl fun mail => ?_
  cases hregards : mail.regards id with
  | true => exact Bool.true_and _
  | false => rw [mail.isCloseAll_of_not_regards hregards, Bool.false_and]

/-! ## Engines that are alike for a connection -/

namespace Engine

variable {e e' : Engine} {id : ConnectionId}

/-- Two engines cannot be told apart by what a connection may have to do with. -/
structure Alike (id : ConnectionId) (e e' : Engine) : Prop where
  numbered : e.table.Numbered
  numbered' : e'.table.Numbered
  keeps : e.Keeps e'
  found : e'.table.find? id = e.table.find? id

/-- Mail does the same to a connection of two engines that are alike for it. -/
theorem Alike.dispatch (h : Alike id e e') (mail : Mail) :
    Agrees id (e'.dispatch mail) ((e.dispatch mail).1.table.find? id, (e.dispatch mail).2) := by
  by_cases hmail : ∀ transport peer leftover,
      mail ≠ .completion (.registered transport peer leftover)
  · have hfirst := agrees_dispatch h.numbered hmail id
    have hsecond := agrees_dispatch h.numbered' hmail id
    rw [h.found] at hsecond
    exact ⟨hsecond.found.trans hfirst.found.symm, hsecond.felt.trans hfirst.felt.symm⟩
  · simp only [ne_eq, Classical.not_forall, Classical.not_not] at hmail
    obtain ⟨transport, peer, leftover, rfl⟩ := hmail
    cases hstopping : e.stopping with
    | true =>
      have hstopping' := h.keeps.stopping.trans hstopping
      simp only [Engine.dispatch, register, hstopping, hstopping', if_true]
      exact ⟨h.found, rfl⟩
    | false =>
      have hfirst := agrees_register h.numbered hstopping transport peer leftover id
      have hsecond := agrees_register h.numbered' (h.keeps.stopping.trans hstopping) transport peer
        leftover id
      rw [h.keeps.lastId, h.keeps.limit, h.found] at hsecond
      exact ⟨hsecond.found.trans hfirst.found.symm, hsecond.felt.trans hfirst.felt.symm⟩

/-- Mail that does not regard a connection does nothing to it. -/
theorem agrees_of_not_regards (h : e.table.Numbered) {mail : Mail}
    (hregards : mail.regards id = false) :
    Agrees id (e.dispatch mail) (e.table.find? id, []) := by
  have hmail : ∀ transport peer leftover,
      mail ≠ .completion (.registered transport peer leftover) := by
    rintro transport peer leftover rfl
    cases hregards
  have hagrees := agrees_dispatch h hmail id
  rwa [mail.errandFor?_of_not_regards hregards, meet_none] at hagrees

end Engine

/-! ## Courses that are alike for a connection -/

namespace Course

variable {s s' : Course} {id : ConnectionId} {mail : Mail}

/-- Two courses have been the same for a connection. -/
structure Alike (id : ConnectionId) (s s' : Course) : Prop where
  found : s'.engine.table.find? id = s.engine.table.find? id
  inFlight : s'.inFlight.filter (·.id = id) = s.inFlight.filter (·.id = id)
  effects : effectsOn id s'.effects = effectsOn id s.effects

theorem Alike.refl (id : ConnectionId) (s : Course) : s.Alike id s := ⟨rfl, rfl, rfl⟩

theorem Alike.symm (h : s.Alike id s') : s'.Alike id s :=
  ⟨h.found.symm, h.inFlight.symm, h.effects.symm⟩

theorem Alike.trans {s'' : Course} (h : s.Alike id s') (h' : s'.Alike id s'') : s.Alike id s'' :=
  ⟨h'.found.trans h.found, h'.inFlight.trans h.inFlight, h'.effects.trans h.effects⟩

/-- Mail that names no other connection may come in a course if it may come in one that is alike. -/
theorem Alike.admits (h : s.Alike id s') (hregards : mail.regards id = true)
    (hadmits : s.Admits mail) : s'.Admits mail := by
  intro other errand herrand hend
  obtain ⟨o, hmem, hends⟩ := hadmits other errand herrand hend
  rw [mail.ends_of_errand herrand, Bool.and_eq_true, beq_iff_eq] at hends
  have hother : other = id := by
    rw [mail.regards_eq, mail.stream?_of_errand herrand, mail.errandFor?_of_errand herrand]
      at hregards
    by_contra hne
    simp [hne] at hregards
  have hmem' : o ∈ s'.inFlight.filter (·.id = id) := by
    rw [h.inFlight]
    exact List.mem_filter.mpr ⟨hmem, decide_eq_true (hends.2.trans hother)⟩
  refine ⟨o, (List.mem_filter.mp hmem').1, ?_⟩
  rw [mail.ends_of_errand herrand, Bool.and_eq_true, beq_iff_eq]
  exact hends

/-- Mail that regards a connection does the same in courses that are alike for it. -/
theorem Alike.after (h : s.Alike id s') (hengine : Engine.Alike id s.engine s'.engine)
    (mail : Mail) : (s.after mail).Alike id (s'.after mail) where
  found := (hengine.dispatch mail).found
  inFlight := by
    have hbegun : begun (effectsOn id (s'.engine.dispatch mail).2) =
        begun (effectsOn id (s.engine.dispatch mail).2) :=
      congrArg begun (hengine.dispatch mail).felt
    rw [begun_effectsOn, begun_effectsOn] at hbegun
    show (s'.inFlight.eraseP mail.ends ++ begun (s'.engine.dispatch mail).2).filter (·.id = id) =
      (s.inFlight.eraseP mail.ends ++ begun (s.engine.dispatch mail).2).filter (·.id = id)
    rw [List.filter_append, List.filter_append, hbegun]
    congr 1
    cases herrand : mail.errandFor? id with
    | none =>
      have hnone := mail.not_ends_of_errandFor herrand
      rw [filter_eraseP_of_not hnone, filter_eraseP_of_not hnone, h.inFlight]
    | some errand =>
      rw [funext (mail.ends_of_errandFor herrand), ← List.eraseP_filter, ← List.eraseP_filter,
        h.inFlight]
  effects := by
    show effectsOn id (s'.effects ++ (s'.engine.dispatch mail).2) =
      effectsOn id (s.effects ++ (s.engine.dispatch mail).2)
    rw [effectsOn_append, effectsOn_append, h.effects, (hengine.dispatch mail).felt]

/-- Mail that does not regard a connection changes nothing for it. -/
theorem alike_after (hnumbered : s.engine.table.Numbered) (hregards : mail.regards id = false) :
    (s.after mail).Alike id s where
  found := (Engine.agrees_of_not_regards hnumbered hregards).found.symm
  inFlight := by
    have hbegun := congrArg begun (Engine.agrees_of_not_regards hnumbered hregards).felt
    rw [begun_effectsOn] at hbegun
    have hnone := mail.not_ends_of_errandFor (mail.errandFor?_of_not_regards hregards)
    show _ = (s.inFlight.eraseP mail.ends ++ begun (s.engine.dispatch mail).2).filter (·.id = id)
    rw [List.filter_append, hbegun, filter_eraseP_of_not hnone]
    exact (List.append_nil _).symm
  effects := by
    show _ = effectsOn id (s.effects ++ (s.engine.dispatch mail).2)
    rw [effectsOn_append, (Engine.agrees_of_not_regards hnumbered hregards).felt]
    exact (List.append_nil _).symm

end Course

/-! ## Runs without other mail -/

namespace Reached

variable {limit : Nat} {mails mails' : List Mail} {s s' : Course} {id : ConnectionId}

/-- Without the mail that does not regard a connection, its engine is alike for it. -/
theorem alike_engine (h : Reached limit mails s)
    (h' : Reached limit (mails.filter (·.regards id)) s') (halike : s.Alike id s') :
    Engine.Alike id s.engine s'.engine where
  numbered := h.numbered
  numbered' := h'.numbered
  found := halike.found
  keeps :=
    { stopping := by rw [h.stopping_eq, h'.stopping_eq, any_isCloseAll_filter]
      lastId := by rw [h.lastId_eq, h'.lastId_eq, admitted_filter]
      limit := by rw [h.limit_eq, h'.limit_eq] }

/-- All mail that does not regard a connection may be left out, and nothing changes for it. -/
theorem apart (h : Reached limit mails s) (id : ConnectionId) :
    ∃ s', Reached limit (mails.filter (·.regards id)) s' ∧ s.Alike id s' := by
  induction h with
  | start => exact ⟨.start limit, .start, .refl id _⟩
  | @mail mails s mail h hadmits ih =>
    obtain ⟨s', h', halike⟩ := ih
    rw [List.filter_append]
    cases hregards : mail.regards id with
    | true =>
      rw [List.filter_cons_of_pos hregards]
      exact ⟨s'.after mail, h'.mail (halike.admits hregards hadmits),
        halike.after (h.alike_engine h' halike) mail⟩
    | false =>
      rw [List.filter_cons_of_neg (by simp [hregards]), List.filter_nil, List.append_nil]
      exact ⟨s', h', (Course.alike_after h.numbered hregards).trans halike⟩

/-- Courses with the same mail that regards a connection are alike for it. -/
theorem alike (h : Reached limit mails s) (h' : Reached limit mails' s')
    (hsame : mails'.filter (·.regards id) = mails.filter (·.regards id)) : s.Alike id s' := by
  obtain ⟨alone, hreached, halike⟩ := h.apart id
  obtain ⟨alone', hreached', halike'⟩ := h'.apart id
  have hsame' : alone' = alone := by
    rw [hreached.eq_foldl, hreached'.eq_foldl, hsame]
  exact halike.trans (hsame' ▸ halike'.symm)

end Reached

/-! ## Hosts -/

namespace Host

/-- Two hosts, with what has happened to their engines, are the same for one connection. -/
structure SameFor (id : ConnectionId) (host host' : Host) (s s' : Course) : Prop where
  /-- It is in both tables or in neither, and in the same state. -/
  found : host'.engine.table.find? id = host.engine.table.find? id
  /-- The same reads and writes of it have begun, in the same order. -/
  begun : begun (effectsOn id s'.effects) = begun (effectsOn id s.effects)
  /-- The same of them are in flight. -/
  inFlight : s'.inFlight.filter (·.id = id) = s.inFlight.filter (·.id = id)
  /-- The same frames have joined its queue. -/
  joined : joined (effectsOn id s'.effects) = joined (effectsOn id s.effects)
  /-- The applications were told the same of it. -/
  told : host'.toldOf id = host.toldOf id

theorem undisturbed (settings : Settings) (application application' : Application)
    (address address' : String) {mails mails' : List Mail} {s s' : Course}
    (h : Reached settings.payloadLimit mails s) (h' : Reached settings.payloadLimit mails' s')
    (id : ConnectionId) (hsame : mails'.filter (·.regards id) = mails.filter (·.regards id)) :
    SameFor id ((new settings application address).handleAll mails)
      ((new settings application' address').handleAll mails') s s' := by
  have halike := h.alike h' hsame
  have hrun := h.run_eq
  have hrun' := h'.run_eq
  refine ⟨?_, congrArg _ halike.effects, halike.inFlight, congrArg _ halike.effects, ?_⟩
  · rw [handleAll_engine, handleAll_engine]
    show ((Engine.new settings.payloadLimit).run mails').1.table.find? id =
      ((Engine.new settings.payloadLimit).run mails).1.table.find? id
    rw [hrun, hrun']
    exact halike.found
  · rw [toldOf_handleAll, toldOf_handleAll, hrun, hrun']
    exact congrArg delivered halike.effects

/-- The first of two clients is sent something, which it is sent as well if the second breaks a rule
meanwhile and an application that panics throws it out once more. -/
theorem undisturbed_neighbour :
    let send : Mail := .request (.send ⟨1⟩ (.text "yes") none)
    let mails : List Mail := [.bring 0, .bring 1, send]
    let mails' : List Mail := [.bring 0, .bring 1,
      .completion (.read ⟨2⟩ 1 (.ofOctets [0x81, 0x00]) (.ok 2)), send, .request (.drop ⟨2⟩)]
    let s := mails.foldl Course.after (.start Settings.standard.payloadLimit)
    let s' := mails'.foldl Course.after (.start Settings.standard.payloadLimit)
    let silent : Application := fun _ _ _ => ⟨[], none⟩
    let panics : Application := fun _ id _ => ⟨[.request (.drop id)], some (.text "no")⟩
    Reached Settings.standard.payloadLimit mails s ∧
      Reached Settings.standard.payloadLimit mails' s' ∧
      mails'.filter (·.regards ⟨1⟩) = mails.filter (·.regards ⟨1⟩) ∧
      SameFor ⟨1⟩ ((new Settings.standard silent "").handleAll mails)
        ((new Settings.standard panics "").handleAll mails') s s' := by
  intro send mails mails' s s' silent panics
  have hreached : Reached Settings.standard.payloadLimit mails s := reached_foldl (by decide +kernel)
  have hreached' : Reached Settings.standard.payloadLimit mails' s' :=
    reached_foldl (by decide +kernel)
  have hsame : mails'.filter (·.regards ⟨1⟩) = mails.filter (·.regards ⟨1⟩) := rfl
  exact ⟨hreached, hreached', hsame,
    undisturbed Settings.standard silent panics "" "" hreached hreached' ⟨1⟩ hsame⟩

end Host

end WebSocket
