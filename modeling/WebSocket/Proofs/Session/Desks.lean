import WebSocket.Proofs.Session.Deeds

/-!
# A table under any order of operations

Whatever is done on a desk, in whatever order, leaves it in order (`Desk.orderly_run`).  One step keeps
`Desk.Sound`: the table is numbered, every connection rests with its own operations
(`Connection.Rests`), nothing is in flight for a number that is not in the table, and the tally has
moved by the size of the table.  That a connection is told closed once follows from adding up over a
run:

    (d.hasClosed id).toNat + (the answers that tell it) = (last.hasClosed id).toNat
                                                                            (Sound.hasClosed_run)
-/

namespace WebSocket

/-! ## The table -/

namespace Table

variable {table : Table} {id : ConnectionId}

theorem find?_closeAll (table : Table) (id : ConnectionId) :
    table.closeAll.1.find? id = (table.find? id).map (·.close.1) := by
  obtain ⟨lastId, limit, entries⟩ := table
  simp only [closeAll]
  induction entries with
  | nil => rfl
  | cons entry entries ih =>
    rw [List.map_cons, find?_cons, find?_cons, ih]
    split <;> rfl

theorem ids_closeAll (table : Table) : table.closeAll.1.ids = table.ids := by
  simp only [ids, closeAll, List.map_map]
  rfl

theorem Numbered.closeAll (h : table.Numbered) : (Table.closeAll table).1.Numbered where
  own := by
    intro entry hmem
    obtain ⟨old, hold, rfl⟩ := List.mem_map.mp hmem
    exact old.2.close_id.trans (h.own old hold)
  ascending := by
    rw [ids_closeAll]
    exact h.ascending
  given := by
    rw [ids_closeAll]
    exact h.given

/-- The connections that were not closed before are told. -/
theorem mem_closeAll (h : table.Numbered) :
    id ∈ (Table.closeAll table).2 ↔ ∃ c, table.find? id = some c ∧ c.closed = false := by
  simp only [Table.closeAll, List.mem_map, List.mem_filter]
  constructor
  · rintro ⟨entry, ⟨hmem, hfirst⟩, rfl⟩
    rw [Connection.close_snd, Bool.not_eq_true'] at hfirst
    exact ⟨entry.2, find?_of_mem h.nodup_ids hmem, hfirst⟩
  · rintro ⟨c, hc, hopen⟩
    refine ⟨(id, c), ⟨mem_of_find? hc, ?_⟩, rfl⟩
    rw [Connection.close_snd, hopen]
    rfl

theorem size_set (table : Table) (id : ConnectionId) (c : Connection) :
    (table.set id c).size = table.size :=
  List.length_map ..

theorem size_without (h : table.Numbered) {c : Connection} (hc : table.find? id = some c) :
    (table.without id).size + 1 = table.size := by
  have hmem : id ∈ table.ids := find?_isSome_iff.mp (by rw [hc]; rfl)
  have hsize (t : Table) : t.size = t.ids.length := (List.length_map ..).symm
  have hpos := List.length_pos_of_mem hmem
  have herase : table.ids.filter (· ≠ id) = table.ids.erase id := by
    rw [h.nodup_ids.erase_eq_filter]
    exact List.filter_congr fun other _ => by by_cases hother : other = id <;> simp [hother]
  rw [hsize, hsize, ids_without, herase, List.length_erase_of_mem hmem]
  omega

theorem Numbered.given_of_find? (h : table.Numbered) {c : Connection}
    (hc : table.find? id = some c) : 0 < id.value ∧ id.value ≤ table.lastId :=
  h.given id (find?_isSome_iff.mp (by rw [hc]; rfl))

end Table

/-! ## The tally -/

def Tally.gauge (tally : Tally) : Int := tally.metrics.value Metrics.connectionsName

/-- Since a tally stood at `start`, so many connections have come to be and not ceased to be. -/
structure Tally.Counts (start tally : Tally) (n : Nat) : Prop where
  present : tally.present = start.present + .ofNat n
  gauge : tally.gauge = start.gauge + n

namespace Tally.Counts

variable {start tally : Tally} {n : Nat}

theorem enter (h : start.Counts tally n) : start.Counts tally.enter (n + 1) where
  present := by
    show tally.present + 1 = _
    rw [h.present, UInt64.ofNat_add, UInt64.add_assoc]
    rfl
  gauge := by
    have hadd : tally.enter.gauge = tally.gauge + 1 :=
      Metrics.value_add_self Metrics.connectionsName 1 tally.metrics
    rw [hadd, h.gauge]
    omega

theorem leave (h : start.Counts tally (n + 1)) : start.Counts tally.leave n where
  present := by
    show tally.present - 1 = _
    rw [h.present, UInt64.ofNat_add, ← UInt64.add_assoc]
    exact UInt64.add_sub_cancel _ _
  gauge := by
    have hadd : tally.leave.gauge = tally.gauge + -1 :=
      Metrics.value_add_self Metrics.connectionsName (-1) tally.metrics
    rw [hadd, h.gauge]
    omega

/-- When all connections have ceased to be, the tally is where it was. -/
theorem foldl_leave {α : Type} {all : List α} (h : start.Counts tally all.length) :
    start.Counts (all.foldl (fun tally _ => tally.leave) tally) 0 := by
  induction all generalizing tally with
  | nil => exact h
  | cons entry later ih => exact ih h.leave

end Tally.Counts

namespace Desk

variable {start : Tally} {d : Desk} {id : ConnectionId} {c : Connection}

/-! ## What every step keeps -/

/-- What is true of a desk whatever has been done on it. -/
structure Sound (start : Tally) (d : Desk) : Prop where
  numbered : d.table.Numbered
  rests : ∀ id c, d.table.find? id = some c → c.Rests (own id d.inFlight)
  absent : ∀ id, d.table.find? id = none → own id d.inFlight = []
  counts : start.Counts d.tally d.table.size

theorem sound_new (limit : Nat) (tally : Tally) : (new limit tally).Sound tally where
  numbered := Table.numbered_new limit
  rests := by
    intro id c hc
    cases hc
  absent := fun _ _ => rfl
  counts := ⟨(UInt64.add_zero _).symm, (Int.add_zero _).symm⟩

/-- A deed on a connection that is there. -/
theorem act_on (hc : d.table.find? id = some c) (deed : Deed) :
    d.act (.on id deed) =
      ({ d with
          table := d.table.set id (c.undergo d.inFlight deed).connection
          inFlight := (c.undergo d.inFlight deed).inFlight },
        (c.undergo d.inFlight deed).begun, (c.undergo d.inFlight deed).answer) := by
  simp only [act, hc]

theorem act_on_of_absent (hc : d.table.find? id = none) (deed : Deed) :
    d.act (.on id deed) = (d, none, .unknown) := by
  simp only [act, hc]

theorem act_erase (hc : d.table.find? id = some c) (hremovable : c.lifecycle = .removable) :
    d.act (.erase id) =
      ({ d with table := d.table.without id, tally := d.tally.leave }, none, .told true) := by
  have hcan : c.isRemovable = true := by rw [Connection.isRemovable, hremovable]; rfl
  simp only [act, Table.erase?_of_find? hc, hcan, if_true]

theorem act_erase_of_not (h : ∀ c, d.table.find? id = some c → c.lifecycle ≠ .removable) :
    d.act (.erase id) = (d, none, .told false) := by
  cases hc : d.table.find? id with
  | none => simp only [act, Table.erase?, hc]
  | some c =>
    have hcannot : ¬ c.isRemovable = true := fun hcan => h c hc (by
      simpa [Connection.isRemovable] using hcan)
    simp only [act, Table.erase?_of_find? hc, if_neg hcannot]

/-- An act of erasing succeeds or changes nothing. -/
theorem act_erase_cases (d : Desk) (id : ConnectionId) :
    (∃ c, d.table.find? id = some c ∧ c.lifecycle = .removable ∧ d.act (.erase id) =
        ({ d with table := d.table.without id, tally := d.tally.leave }, none, .told true)) ∨
      d.act (.erase id) = (d, none, .told false) := by
  by_cases h : ∃ c, d.table.find? id = some c ∧ c.lifecycle = .removable
  · obtain ⟨c, hc, hremovable⟩ := h
    exact .inl ⟨c, hc, hremovable, act_erase hc hremovable⟩
  · exact .inr (act_erase_of_not fun c hc hremovable => h ⟨c, hc, hremovable⟩)

end Desk

/-- Nothing is in flight for a connection that can be removed. -/
theorem Connection.Rests.eq_nil {c : Connection} {operations : List Operation}
    (h : c.Rests operations) (hremovable : c.lifecycle = .removable) : operations = [] := by
  have hidle : c.reading = false ∧ c.sending = false := by
    unfold lifecycle at hremovable
    split at hremovable
    · split at hremovable
      · cases hremovable
      · rename_i hbusy
        exact Bool.or_eq_false_iff.mp (Bool.eq_false_iff.mpr hbusy)
    · cases hremovable
  obtain ⟨transport, hr, hw⟩ := h.halves
  exact eq_nil_of_halves (hr.of_not_reading hidle.1).1 (hw.of_not_sending hidle.2).1

namespace Desk

variable {start : Tally} {d : Desk} {id : ConnectionId} {c : Connection}

theorem Sound.add (h : d.Sound start) (transport : Transport) (peer : Option SocketAddress)
    (leftover : ReceiveBuffer) : (d.act (.add transport peer leftover)).1.Sound start where
  numbered := h.numbered.add transport peer leftover
  rests := by
    intro id c hc
    rw [show (d.act (.add transport peer leftover)).1.table =
      (d.table.add transport peer leftover).1 from rfl, h.numbered.find?_add] at hc
    split at hc
    · rename_i hnext
      cases hc
      obtain rfl : id = ⟨d.table.lastId + 1⟩ := by cases id; simp_all
      show Connection.Rests _ (own _ d.inFlight)
      rw [h.absent _ h.numbered.find?_next]
      exact Connection.rests_new ..
    · exact h.rests id c hc
  absent := by
    intro id hnone
    rw [show (d.act (.add transport peer leftover)).1.table =
      (d.table.add transport peer leftover).1 from rfl, h.numbered.find?_add] at hnone
    split at hnone
    · cases hnone
    · exact h.absent id hnone
  counts := by
    have hsize : (d.table.add transport peer leftover).1.size = d.table.size + 1 := by
      simp [Table.size, Table.add]
    show start.Counts d.tally.enter (d.table.add transport peer leftover).1.size
    rw [hsize]
    exact h.counts.enter

theorem Sound.erase (h : d.Sound start) (id : ConnectionId) :
    (d.act (.erase id)).1.Sound start := by
  rcases d.act_erase_cases id with ⟨c, hc, hremovable, herase⟩ | hkeep
  · rw [herase]
    exact {
      numbered := h.numbered.without id
      rests := by
        intro other c' hc'
        rw [Table.find?_without] at hc'
        split at hc'
        · cases hc'
        · exact h.rests other c' hc'
      absent := by
        intro other hnone
        rw [Table.find?_without] at hnone
        split at hnone
        · rename_i hother
          subst hother
          exact (h.rests other c hc).eq_nil hremovable
        · exact h.absent other hnone
      counts := by
        have hcounts := h.counts
        rw [← Table.size_without h.numbered hc] at hcounts
        exact hcounts.leave }
  · rw [hkeep]
    exact h

theorem Sound.closeAll (h : d.Sound start) : (d.act .closeAll).1.Sound start where
  numbered := h.numbered.closeAll
  rests := by
    intro id c hc
    rw [show (d.act .closeAll).1.table = d.table.closeAll.1 from rfl, Table.find?_closeAll] at hc
    obtain ⟨before, hbefore, rfl⟩ := Option.map_eq_some_iff.mp hc
    exact (h.rests id before hbefore).close
  absent := by
    intro id hnone
    rw [show (d.act .closeAll).1.table = d.table.closeAll.1 from rfl, Table.find?_closeAll] at hnone
    exact h.absent id (Option.map_eq_none_iff.mp hnone)
  counts := by
    have hsize : d.table.closeAll.1.size = d.table.size := List.length_map ..
    show start.Counts d.tally d.table.closeAll.1.size
    rw [hsize]
    exact h.counts

theorem Sound.on (h : d.Sound start) (id : ConnectionId) (deed : Deed) :
    (d.act (.on id deed)).1.Sound start := by
  cases hc : d.table.find? id with
  | none =>
    rw [act_on_of_absent hc]
    exact h
  | some c =>
    obtain rfl : c.id = id := h.numbered.id_of_find? hc
    obtain ⟨hconnection, hown, -⟩ := c.own_undergo d.inFlight deed
    rw [act_on hc]
    exact {
      numbered := h.numbered.set (c.undergo_id d.inFlight deed)
      rests := by
        intro other c' hc'
        rw [Table.find?_set, hc] at hc'
        split at hc'
        · rename_i hother
          subst hother
          cases hc'
          show Connection.Rests _ (own c.id (c.undergo d.inFlight deed).inFlight)
          rw [hconnection, hown]
          exact (h.rests c.id c hc).undergo deed
        · rename_i hother
          show c'.Rests (own other (c.undergo d.inFlight deed).inFlight)
          rw [Connection.own_undergo_of_ne (Ne.symm hother)]
          exact h.rests other c' hc'
      absent := by
        intro other hnone
        rw [Table.find?_set, hc] at hnone
        split at hnone
        · cases hnone
        · rename_i hother
          show own other (c.undergo d.inFlight deed).inFlight = []
          rw [Connection.own_undergo_of_ne (Ne.symm hother)]
          exact h.absent other hnone
      counts := by
        show start.Counts d.tally (d.table.set c.id _).size
        rw [Table.size_set]
        exact h.counts }

/-- Every step keeps what is true of a desk. -/
theorem Sound.act (h : d.Sound start) (act : Act) : (d.act act).1.Sound start := by
  cases act with
  | add transport peer leftover => exact h.add transport peer leftover
  | erase id => exact h.erase id
  | closeAll => exact h.closeAll
  | on id deed => exact h.on id deed

theorem Sound.run (h : d.Sound start) (acts : List Act) : (d.run acts).1.Sound start := by
  induction acts generalizing d with
  | nil => exact h
  | cons act later ih => exact ih (h.act act)

/-! ## Told once -/

def hasClosed (d : Desk) (id : ConnectionId) : Bool :=
  decide (0 < id.value ∧ id.value ≤ d.table.lastId) && (d.table.find? id).all (·.closed)

/-- Whether an answer tells that a connection is closed now and was not before. -/
def tellsClosed (id : ConnectionId) : Act × Answer → Bool
  | (.on other .close, .told first) => decide (other = id) && first
  | (.closeAll, .closed ids) => decide (id ∈ ids)
  | _ => false

theorem hasClosed_of_find? (h : d.table.Numbered) (hc : d.table.find? id = some c) :
    d.hasClosed id = c.closed := by
  simp [hasClosed, hc, h.given_of_find? hc]

theorem hasClosed_of_same {d' : Desk} (hlast : d'.table.lastId = d.table.lastId)
    (hfind : d'.table.find? id = d.table.find? id) : d'.hasClosed id = d.hasClosed id := by
  rw [hasClosed, hasClosed, hlast, hfind]

theorem Sound.hasClosed_add (h : d.Sound start) (transport : Transport)
    (peer : Option SocketAddress) (leftover : ReceiveBuffer) (id : ConnectionId) :
    (d.act (.add transport peer leftover)).1.hasClosed id = d.hasClosed id := by
  have hfind : (d.act (.add transport peer leftover)).1.table.find? id = _ :=
    h.numbered.find?_add transport peer leftover id
  have hlast : (d.act (.add transport peer leftover)).1.table.lastId = d.table.lastId + 1 := rfl
  by_cases hnext : id.value = d.table.lastId + 1
  · rw [if_pos hnext] at hfind
    have hnot : ¬ (0 < id.value ∧ id.value ≤ d.table.lastId) := by omega
    rw [hasClosed, hasClosed, hfind, decide_eq_false hnot, Bool.false_and]
    exact Bool.and_false _
  · rw [if_neg hnext] at hfind
    have hgiven : (0 < id.value ∧ id.value ≤ d.table.lastId + 1) ↔
        (0 < id.value ∧ id.value ≤ d.table.lastId) := by omega
    rw [hasClosed, hasClosed, hfind, hlast, decide_eq_decide.mpr hgiven]

theorem Sound.hasClosed_erase (h : d.Sound start) (other id : ConnectionId) :
    (d.act (.erase other)).1.hasClosed id = d.hasClosed id := by
  rcases d.act_erase_cases other with ⟨c, hc, hremovable, herase⟩ | hkeep
  · rw [herase]
    by_cases hid : id = other
    · -- It was closed, and it is not there any more.
      subst hid
      have hclosed : c.closed = true := by
        cases hopen : c.closed with
        | true => rfl
        | false => rw [Connection.lifecycle_eq_live_iff.mpr hopen] at hremovable; cases hremovable
      rw [hasClosed_of_find? h.numbered hc, hclosed, hasClosed, Table.find?_without, if_pos rfl]
      have hgiven := h.numbered.given_of_find? hc
      simpa [Table.without] using hgiven
    · exact hasClosed_of_same rfl ((Table.find?_without ..).trans (if_neg hid))
  · rw [hkeep]

theorem Sound.hasClosed_closeAll (h : d.Sound start) (id : ConnectionId) :
    ((d.act .closeAll).1.hasClosed id).toNat =
      (d.hasClosed id).toNat + (tellsClosed id (.closeAll, (d.act .closeAll).2.2)).toNat := by
  have hfind : (d.act .closeAll).1.table.find? id = _ := Table.find?_closeAll d.table id
  have htold : tellsClosed id (.closeAll, (d.act .closeAll).2.2) = true ↔
      ∃ c, d.table.find? id = some c ∧ c.closed = false := by
    rw [← Table.mem_closeAll h.numbered]
    exact decide_eq_true_iff
  cases hc : d.table.find? id with
  | none =>
    rw [hc, Option.map_none] at hfind
    have hnot : tellsClosed id (.closeAll, (d.act .closeAll).2.2) = false := by
      rw [Bool.eq_false_iff, Ne, htold, hc]
      rintro ⟨c, hsome, -⟩
      cases hsome
    have hsame : (d.act .closeAll).1.hasClosed id = d.hasClosed id :=
      hasClosed_of_same rfl (hfind.trans hc.symm)
    rw [hnot, hsame]
    rfl
  | some c =>
    rw [hc] at hfind htold
    rw [hasClosed_of_find? h.closeAll.numbered hfind, c.closed_close,
      hasClosed_of_find? h.numbered hc]
    cases hclosed : c.closed with
    | true =>
      have hnot : tellsClosed id (.closeAll, (d.act .closeAll).2.2) = false := by
        rw [Bool.eq_false_iff, Ne, htold]
        rintro ⟨c', hsome, hopen⟩
        cases hsome
        exact absurd (hclosed.symm.trans hopen) (by decide)
      rw [hnot]
      rfl
    | false => rw [htold.mpr ⟨c, rfl, hclosed⟩]; rfl

theorem Sound.hasClosed_on (h : d.Sound start) (other : ConnectionId) (deed : Deed)
    (id : ConnectionId) :
    ((d.act (.on other deed)).1.hasClosed id).toNat =
      (d.hasClosed id).toNat +
        (tellsClosed id (.on other deed, (d.act (.on other deed)).2.2)).toNat := by
  cases hc : d.table.find? other with
  | none =>
    rw [act_on_of_absent hc]
    cases deed <;> rfl
  | some c =>
    have hsound := h.on other deed
    rw [act_on hc] at hsound ⊢
    have hfind := Table.find?_set d.table other id (c.undergo d.inFlight deed).connection
    by_cases hid : id = other
    · subst hid
      rw [if_pos rfl, hc] at hfind
      rw [hasClosed_of_find? hsound.numbered hfind, hasClosed_of_find? h.numbered hc,
        Connection.closed_undergo]
      cases deed with
      | close =>
        simp only [tellsClosed, Connection.undergo, Connection.close_snd]
        cases c.closed <;> simp
      | _ => simp [tellsClosed]
    · -- What is done with another connection tells nothing of this one.
      rw [if_neg hid] at hfind
      have hsame : tellsClosed id (.on other deed, (c.undergo d.inFlight deed).answer) = false := by
        cases deed with
        | close => simp [tellsClosed, Connection.undergo, Ne.symm hid]
        | _ => rfl
      rw [hsame]
      exact congrArg Bool.toNat (hasClosed_of_same rfl hfind)

/-- The answer to each step tells the closings that come with it. -/
theorem Sound.hasClosed_act (h : d.Sound start) (act : Act) (id : ConnectionId) :
    ((d.act act).1.hasClosed id).toNat =
      (d.hasClosed id).toNat + (tellsClosed id (act, (d.act act).2.2)).toNat := by
  cases act with
  | add transport peer leftover =>
    rw [h.hasClosed_add transport peer leftover id]
    rfl
  | erase other =>
    rw [h.hasClosed_erase other id]
    rfl
  | closeAll => exact h.hasClosed_closeAll id
  | on other deed => exact h.hasClosed_on other deed id

/-- Over a run, as many answers tell that a connection is closed as there are closings of it. -/
theorem Sound.hasClosed_run (h : d.Sound start) (acts : List Act) (id : ConnectionId) :
    ((d.run acts).1.hasClosed id).toNat =
      (d.hasClosed id).toNat + (d.run acts).2.countP (tellsClosed id) := by
  induction acts generalizing d with
  | nil => rfl
  | cons act later ih =>
    have hstep := h.hasClosed_act act id
    have hrun := ih (h.act act)
    simp only [Desk.run, List.countP_cons]
    cases htold : tellsClosed id (act, (d.act act).2.2) with
    | true =>
      rw [htold, Bool.toNat_true] at hstep
      rw [if_pos rfl]
      omega
    | false =>
      rw [htold, Bool.toNat_false] at hstep
      rw [if_neg (by decide)]
      omega

/-! ## Never back -/

/-- Between two points of a run, a connection that is there at the second was there at the first,
and has not come back from where it was. -/
def Onward (now later : Option Connection) : Prop :=
  ∀ c', later = some c' → ∃ c, now = some c ∧ c.lifecycle.rank ≤ c'.lifecycle.rank

theorem Onward.refl (now : Option Connection) : Onward now now :=
  fun c hc => ⟨c, hc, Nat.le_refl _⟩

theorem Onward.trans {now later last : Option Connection} (h : Onward now later)
    (h' : Onward later last) : Onward now last := by
  intro c'' hc''
  obtain ⟨c', hc', hrank'⟩ := h' c'' hc''
  obtain ⟨c, hc, hrank⟩ := h c' hc'
  exact ⟨c, hc, Nat.le_trans hrank hrank'⟩

theorem rank_le_close (c : Connection) : c.lifecycle.rank ≤ c.close.1.lifecycle.rank :=
  c.rank_le_undergo [] .close

theorem Sound.onward_act (h : d.Sound start) (act : Act) (hgiven : id.value ≤ d.table.lastId) :
    d.table.lastId ≤ (d.act act).1.table.lastId ∧
      Onward (d.table.find? id) ((d.act act).1.table.find? id) := by
  cases act with
  | add transport peer leftover =>
    refine ⟨Nat.le_succ _, ?_⟩
    have hfind : (d.act (.add transport peer leftover)).1.table.find? id = _ :=
      h.numbered.find?_add transport peer leftover id
    rw [hfind, if_neg (by omega)]
    exact .refl _
  | erase other =>
    rcases d.act_erase_cases other with ⟨c, hc, hremovable, herase⟩ | hkeep
    · rw [herase]
      refine ⟨Nat.le_refl _, ?_⟩
      show Onward _ ((d.table.without other).find? id)
      rw [Table.find?_without]
      split
      · intro c' hc'
        cases hc'
      · exact .refl _
    · rw [hkeep]
      exact ⟨Nat.le_refl _, .refl _⟩
  | closeAll =>
    refine ⟨Nat.le_refl _, ?_⟩
    have hfind : (d.act .closeAll).1.table.find? id = _ := Table.find?_closeAll d.table id
    rw [hfind]
    intro c' hc'
    obtain ⟨c, hc, rfl⟩ := Option.map_eq_some_iff.mp hc'
    exact ⟨c, hc, rank_le_close c⟩
  | on other deed =>
    cases hc : d.table.find? other with
    | none =>
      rw [act_on_of_absent hc]
      exact ⟨Nat.le_refl _, .refl _⟩
    | some c =>
      rw [act_on hc]
      refine ⟨Nat.le_refl _, ?_⟩
      show Onward _ ((d.table.set other (c.undergo d.inFlight deed).connection).find? id)
      rw [Table.find?_set]
      split
      · rename_i hid
        subst hid
        rw [hc]
        intro c' hc'
        cases hc'
        exact ⟨c, rfl, c.rank_le_undergo d.inFlight deed⟩
      · exact .refl _

theorem Sound.onward_run (h : d.Sound start) (acts : List Act)
    (hgiven : id.value ≤ d.table.lastId) :
    Onward (d.table.find? id) ((d.run acts).1.table.find? id) := by
  induction acts generalizing d with
  | nil => exact .refl _
  | cons act later ih =>
    obtain ⟨hlast, hstep⟩ := h.onward_act act hgiven
    exact hstep.trans (ih (h.act act) (Nat.le_trans hgiven hlast))

/-! ## Order -/

/-- How things stand on a desk, after what has been done and answered, when the tally was at `start`
at first. -/
structure Orderly (start : Tally) (d : Desk) (log : List (Act × Answer)) : Prop where
  /-- Whatever is done from now on, no connection goes back in its life. -/
  onward : ∀ acts id c c', d.table.find? id = some c →
    (d.run acts).1.table.find? id = some c' → c.lifecycle.rank ≤ c'.lifecycle.rank
  /-- The half to read from is away as long as the one read is in flight. -/
  reading : ∀ id c, d.table.find? id = some c → (c.reading = true ↔ c.reader = none) ∧
    (reads (own id d.inFlight)).length = c.reading.toNat
  /-- The half to write to is away as long as the one write is in flight. -/
  sending : ∀ id c, d.table.find? id = some c → (c.sending = true ↔ c.writer = none) ∧
    (writes (own id d.inFlight)).length = c.sending.toNat
  /-- Nothing is in flight for a number that is not in the table. -/
  idle : ∀ id, d.table.find? id = none → own id d.inFlight = []
  /-- A closed connection has no queue and takes no frame, and nothing begins for it. -/
  closed : ∀ id c, d.table.find? id = some c → c.closed = true → c.queue.toList = [] ∧
    (∀ outgoing, d.act (.on id (.send outgoing)) = (d, none, .told false)) ∧
    d.act (.on id .beginRead) = (d, none, .nothing) ∧
    d.act (.on id .beginWrite) = (d, none, .nothing)
  /-- A write is given back with the very frame that it began with, or with none if and only if its
  connection has closed. -/
  written : ∀ id writer outgoing, .write id writer outgoing ∈ d.inFlight →
    ∃ c, d.table.find? id = some c ∧ (d.act (.on id .finishWrite)).2.2 =
      .written (if c.closed then none else some outgoing.frame)
  /-- A connection is told closed for the first time if and only if it is live. -/
  closes : ∀ id c, d.table.find? id = some c →
    (d.act (.on id .close)).2.2 = .told (decide (c.lifecycle = .live))
  closesAll : (d.act .closeAll).2.2 =
    .closed ((d.table.entries.filter fun e => e.2.lifecycle = .live).map (·.1))
  /-- It has been told once if it is closed or was removed, and never before. -/
  once : ∀ id, log.countP (tellsClosed id) = (d.hasClosed id).toNat
  /-- A connection leaves the table if and only if it is removable, and alone. -/
  erased : ∀ id c, d.table.find? id = some c → c.lifecycle = .removable →
    (d.act (.erase id)).2.2 = .told true ∧ (d.act (.erase id)).1.inFlight = d.inFlight ∧
    ∀ other, (d.act (.erase id)).1.table.find? other =
      if other = id then none else d.table.find? other
  kept : ∀ id, (∀ c, d.table.find? id = some c → c.lifecycle ≠ .removable) →
    d.act (.erase id) = (d, none, .told false)
  /-- The tally has moved by the size of the table. -/
  counts : start.Counts d.tally d.table.size
  /-- It is where it was when the table is thrown away. -/
  discarded : start.Counts d.discard 0

theorem Sound.refuses (h : d.Sound start) (hc : d.table.find? id = some c)
    (hclosed : c.closed = true) :
    (∀ outgoing, d.act (.on id (.send outgoing)) = (d, none, .told false)) ∧
      d.act (.on id .beginRead) = (d, none, .nothing) ∧
      d.act (.on id .beginWrite) = (d, none, .nothing) := by
  obtain ⟨hread, hwrite, -, hsend⟩ := Connection.undergo_of_closed hclosed d.inFlight
  have hset : d.table.set id c = d.table := h.numbered.set_of_find? hc
  refine ⟨fun outgoing => ?_, ?_, ?_⟩
  · rw [act_on hc, hsend, hset]
  · rw [act_on hc, hread, hset]
  · rw [act_on hc, hwrite, hset]

theorem Sound.gives_back (h : d.Sound start) {writer : Transport} {outgoing : Outgoing}
    (hmem : .write id writer outgoing ∈ d.inFlight) :
    ∃ c, d.table.find? id = some c ∧ (d.act (.on id .finishWrite)).2.2 =
      .written (if c.closed then none else some outgoing.frame) := by
  have hmine : .write id writer outgoing ∈ own id d.inFlight :=
    List.mem_filter.mpr ⟨hmem, decide_eq_true rfl⟩
  cases hc : d.table.find? id with
  | none =>
    rw [h.absent id hc] at hmine
    cases hmine
  | some c =>
    obtain rfl : c.id = id := h.numbered.id_of_find? hc
    refine ⟨c, rfl, ?_⟩
    rw [act_on hc, (c.own_undergo d.inFlight .finishWrite).2.2]
    exact (h.rests c.id c hc).answer_finishWrite hmine

theorem Sound.inOrder (h : d.Sound start) {log : List (Act × Answer)}
    (honce : ∀ id, log.countP (tellsClosed id) = (d.hasClosed id).toNat) : d.Orderly start log where
  onward := by
    intro acts id c c' hc hc'
    have honward := h.onward_run acts (h.numbered.given_of_find? hc).2 c' hc'
    obtain ⟨c₀, hc₀, hrank⟩ := honward
    obtain rfl : c = c₀ := Option.some.inj (hc.symm.trans hc₀)
    exact hrank
  reading := by
    intro id c hc
    obtain ⟨transport, hr, -⟩ := (h.rests id c hc).halves
    refine ⟨hr.iff.1, ?_⟩
    generalize reads (own id d.inFlight) = operations at hr
    cases hr with
    | held hreading => rw [hreading]; rfl
    | lent hreading => rw [hreading]; rfl
  sending := by
    intro id c hc
    obtain ⟨transport, -, hw⟩ := (h.rests id c hc).halves
    refine ⟨hw.iff.1, ?_⟩
    generalize writes (own id d.inFlight) = operations at hw
    cases hw with
    | held hsending => rw [hsending]; rfl
    | lent hsending => rw [hsending]; rfl
  idle := h.absent
  closed := fun id c hc hclosed =>
    ⟨(h.rests id c hc).emptied hclosed, h.refuses hc hclosed⟩
  written := fun id writer outgoing hmem => h.gives_back hmem
  closes := by
    intro id c hc
    rw [act_on hc]
    exact congrArg Answer.told c.close_snd_eq_decide
  closesAll := by
    show Answer.closed ((d.table.entries.filter fun e => e.2.close.2).map (·.1)) = _
    simp only [Connection.close_snd_eq_decide]
  once := honce
  erased := by
    intro id c hc hremovable
    rw [act_erase hc hremovable]
    exact ⟨rfl, rfl, Table.find?_without d.table id⟩
  kept := fun id hnot => act_erase_of_not hnot
  counts := h.counts
  discarded := h.counts.foldl_leave

/-- Whatever is done on a desk with an empty table, in whatever order, it is in order. -/
theorem orderly_run (limit : Nat) (tally : Tally) (acts : List Act) :
    ((new limit tally).run acts).1.Orderly tally ((new limit tally).run acts).2 := by
  have hsound := sound_new limit tally
  refine (hsound.run acts).inOrder fun id => ?_
  have hcount := hsound.hasClosed_run acts id
  have hnever : (new limit tally).hasClosed id = false := by
    have hnot : ¬ (0 < id.value ∧ id.value ≤ 0) := by omega
    exact Bool.and_eq_false_imp.mpr fun h => absurd (decide_eq_true_iff.mp h) hnot
  rw [hnever, Bool.toNat_false, Nat.zero_add] at hcount
  exact hcount.symm

end Desk

end WebSocket
