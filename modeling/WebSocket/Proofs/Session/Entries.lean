import WebSocket.Session.Engine

/-!
# The entries of the table

What the operations on the table do to the connection under a number.  They keep `Table.Numbered`:
every connection stands under its own number, the numbers ascend, and all of them were given out.

    (t.set id c).find? other = if other = id then (t.find? id).map fun _ => c else t.find? other
    (t.without id).find? other = if other = id then none else t.find? other
-/

namespace WebSocket.Table

def without (table : Table) (id : ConnectionId) : Table :=
  { table with entries := table.entries.filter fun e => e.1 ≠ id }

/-- Every connection stands under its own number, in the order in which they were given out. -/
structure Numbered (table : Table) : Prop where
  own : ∀ entry ∈ table.entries, entry.2.id = entry.1
  ascending : table.ids.Pairwise fun a b => a.value < b.value
  given : ∀ id ∈ table.ids, 0 < id.value ∧ id.value ≤ table.lastId

/-! ## Looking up -/

theorem find?_nil (lastId limit : Nat) (id : ConnectionId) :
    find? ⟨lastId, limit, []⟩ id = none := rfl

theorem find?_cons (lastId limit : Nat) (entry : ConnectionId × Connection)
    (entries : List (ConnectionId × Connection)) (id : ConnectionId) :
    find? ⟨lastId, limit, entry :: entries⟩ id =
      if id = entry.1 then some entry.2 else find? ⟨lastId, limit, entries⟩ id := by
  obtain ⟨key, c⟩ := entry
  simp only [find?, List.lookup_cons]
  by_cases h : id = key
  · simp [h]
  · have : (id == key) = false := by simpa using h
    simp [h, this]

theorem mem_of_find? {table : Table} {id : ConnectionId} {c : Connection}
    (h : table.find? id = some c) : (id, c) ∈ table.entries := by
  obtain ⟨lastId, limit, entries⟩ := table
  induction entries with
  | nil => cases h
  | cons entry entries ih =>
    rw [find?_cons] at h
    split at h
    · rename_i same
      obtain ⟨key, c'⟩ := entry
      obtain rfl : c' = c := Option.some.inj h
      subst same
      exact List.mem_cons_self
    · exact List.mem_cons_of_mem _ (ih h)

/-- A connection is found under the number that it stands under. -/
theorem find?_of_mem {table : Table} (h : table.ids.Nodup) {entry : ConnectionId × Connection}
    (hmem : entry ∈ table.entries) : table.find? entry.1 = some entry.2 := by
  obtain ⟨lastId, limit, entries⟩ := table
  induction entries with
  | nil => cases hmem
  | cons first entries ih =>
    rw [find?_cons]
    obtain ⟨hfresh, hnodup⟩ := List.nodup_cons.mp h
    rcases List.mem_cons.mp hmem with rfl | hmem
    · rw [if_pos rfl]
    · have hne : entry.1 ≠ first.1 := by
        intro heq
        exact hfresh (List.mem_map.mpr ⟨entry, hmem, heq⟩)
      rw [if_neg hne]
      exact ih hnodup hmem

theorem find?_isSome_iff {table : Table} {id : ConnectionId} :
    (table.find? id).isSome = true ↔ id ∈ table.ids := by
  obtain ⟨lastId, limit, entries⟩ := table
  induction entries with
  | nil => simp [find?_nil, ids]
  | cons entry entries ih =>
    rw [find?_cons]
    simp only [ids, List.map_cons, List.mem_cons] at ih ⊢
    split <;> simp_all

theorem find?_eq_none_iff {table : Table} {id : ConnectionId} :
    table.find? id = none ↔ id ∉ table.ids := by
  rw [← find?_isSome_iff, Option.not_isSome_iff_eq_none]

theorem find?_set (table : Table) (id other : ConnectionId) (c : Connection) :
    (table.set id c).find? other =
      if other = id then (table.find? id).map fun _ => c else table.find? other := by
  obtain ⟨lastId, limit, entries⟩ := table
  simp only [set]
  induction entries with
  | nil => simp [find?_nil]
  | cons entry entries ih =>
    obtain ⟨key, c'⟩ := entry
    simp only [List.map_cons, find?_cons, ih]
    by_cases hk : key = id
    · subst hk
      by_cases ho : other = key <;> simp [ho]
    · by_cases ho : other = id
      · subst ho
        simp [hk, Ne.symm hk]
      · by_cases hok : other = key <;> simp [hk, ho, hok]

theorem find?_without (table : Table) (id other : ConnectionId) :
    (table.without id).find? other = if other = id then none else table.find? other := by
  obtain ⟨lastId, limit, entries⟩ := table
  simp only [without]
  induction entries with
  | nil => simp [find?_nil]
  | cons entry entries ih =>
    obtain ⟨key, c⟩ := entry
    by_cases hk : key = id
    · subst hk
      rw [List.filter_cons_of_neg (by simp), ih, find?_cons]
      by_cases ho : other = key <;> simp [ho]
    · rw [List.filter_cons_of_pos (by simpa using hk), find?_cons, find?_cons, ih]
      by_cases ho : other = id
      · subst ho
        simp [Ne.symm hk]
      · simp [ho]

theorem find?_append (table : Table) (entry : ConnectionId × Connection) (id : ConnectionId) :
    find? { table with entries := table.entries ++ [entry] } id =
      (table.find? id).or (if id = entry.1 then some entry.2 else none) := by
  obtain ⟨lastId, limit, entries⟩ := table
  induction entries with
  | nil => simp [find?_cons, find?_nil]
  | cons first entries ih =>
    simp only [List.cons_append, find?_cons] at ih ⊢
    split
    · rfl
    · exact ih

/-! ## Leaving -/

/-- What is put in the place of a connection leaves with its number. -/
theorem without_set (table : Table) (id : ConnectionId) (c : Connection) :
    (table.set id c).without id = table.without id := by
  obtain ⟨lastId, limit, entries⟩ := table
  simp only [without, set, mk.injEq, true_and]
  induction entries with
  | nil => rfl
  | cons entry entries ih =>
    rw [List.map_cons]
    by_cases hk : entry.1 = id
    · rw [if_pos hk, List.filter_cons_of_neg (by simp), List.filter_cons_of_neg (by simpa using hk)]
      exact ih
    · rw [if_neg hk, List.filter_cons_of_pos (by simpa using hk),
        List.filter_cons_of_pos (by simpa using hk), ih]

theorem set_set (table : Table) (id : ConnectionId) (c c' : Connection) :
    (table.set id c).set id c' = table.set id c' := by
  simp only [set, mk.injEq, List.map_map, true_and]
  apply List.map_congr_left
  intro entry _
  by_cases hk : entry.1 = id <;> simp [hk]

theorem erase?_of_find? {table : Table} {id : ConnectionId} {c : Connection}
    (h : table.find? id = some c) :
    table.erase? id = if c.isRemovable then some (table.without id, c) else none := by
  simp only [erase?, h]
  rfl

/-! ## Numbers -/

theorem ids_set (table : Table) (id : ConnectionId) (c : Connection) :
    (table.set id c).ids = table.ids := by
  simp only [ids, set, List.map_map]
  apply List.map_congr_left
  intro entry _
  by_cases hk : entry.1 = id <;> simp [hk]

theorem ids_without (table : Table) (id : ConnectionId) :
    (table.without id).ids = table.ids.filter (· ≠ id) := by
  simp only [ids, without, List.filter_map]
  rfl

theorem numbered_new (limit : Nat) : (new limit).Numbered where
  own := by intro entry h; cases h
  ascending := .nil
  given := by intro id h; cases h

namespace Numbered

variable {table : Table}

theorem id_of_find? (h : table.Numbered) {id : ConnectionId} {c : Connection}
    (hc : table.find? id = some c) : c.id = id :=
  h.own _ (mem_of_find? hc)

theorem nodup_ids (h : table.Numbered) : table.ids.Nodup :=
  h.ascending.imp fun hlt heq => by
    subst heq
    omega

theorem set (h : table.Numbered) {id : ConnectionId} {c : Connection} (hc : c.id = id) :
    (table.set id c).Numbered where
  own := by
    intro entry hentry
    simp only [Table.set, List.mem_map] at hentry
    obtain ⟨old, hold, rfl⟩ := hentry
    split
    · exact hc
    · exact h.own old hold
  ascending := by rw [ids_set]; exact h.ascending
  given := by rw [ids_set]; exact h.given

theorem without (h : table.Numbered) (id : ConnectionId) : (table.without id).Numbered where
  own := fun entry hentry => h.own entry (List.mem_filter.mp hentry).1
  ascending := by rw [ids_without]; exact h.ascending.filter _
  given := by
    intro other hother
    rw [ids_without] at hother
    exact h.given other (List.mem_filter.mp hother).1

/-- The next number is not in use. -/
theorem find?_next (h : table.Numbered) : table.find? ⟨table.lastId + 1⟩ = none := by
  rw [find?_eq_none_iff]
  intro hmem
  have := (h.given _ hmem).2
  simp only at this
  omega

theorem add (h : table.Numbered) (transport : Transport) (peer : Option SocketAddress)
    (leftover : ReceiveBuffer) : (table.add transport peer leftover).1.Numbered where
  own := by
    intro entry hentry
    rcases List.mem_append.mp hentry with hold | hnew
    · exact h.own entry hold
    · obtain rfl := List.mem_singleton.mp hnew
      rfl
  ascending := by
    simp only [ids, Table.add, List.map_append, List.map_cons, List.map_nil]
    refine List.pairwise_append.mpr ⟨h.ascending, List.pairwise_singleton _ _, ?_⟩
    intro a ha b hb
    obtain rfl := List.mem_singleton.mp hb
    have := (h.given a ha).2
    simp only
    omega
  given := by
    intro id hid
    simp only [ids, Table.add, List.map_append, List.map_cons, List.map_nil, List.mem_append,
      List.mem_singleton] at hid ⊢
    rcases hid with hold | rfl
    · have := h.given id hold
      omega
    · simp

theorem find?_add (h : table.Numbered) (transport : Transport) (peer : Option SocketAddress)
    (leftover : ReceiveBuffer) (id : ConnectionId) :
    (table.add transport peer leftover).1.find? id =
      if id.value = table.lastId + 1 then
        some (.new id transport peer leftover table.limit)
      else table.find? id := by
  have happend := find?_append { table with lastId := table.lastId + 1 }
    (⟨table.lastId + 1⟩, .new ⟨table.lastId + 1⟩ transport peer leftover table.limit) id
  refine happend.trans ?_
  have hsame : find? { table with lastId := table.lastId + 1 } id = table.find? id := rfl
  rw [hsame]
  by_cases hid : id.value = table.lastId + 1
  · obtain rfl : id = ⟨table.lastId + 1⟩ := by cases id; simp_all
    simp [h.find?_next]
  · have hne : id ≠ ⟨table.lastId + 1⟩ := by
      intro e
      apply hid
      rw [e]
    simp [hid, hne]

/-- Putting a connection where it is changes nothing. -/
theorem set_of_find? (h : table.Numbered) {id : ConnectionId} {c : Connection}
    (hc : table.find? id = some c) : Table.set table id c = table := by
  have hsame : table.entries.map (fun e => if e.1 = id then (id, c) else e) = table.entries := by
    conv => rhs; rw [← List.map_id table.entries]
    refine List.map_congr_left fun entry hmem => ?_
    split
    · rename_i hid
      have hentry := find?_of_mem h.nodup_ids hmem
      rw [hid, hc] at hentry
      rw [← hid, Option.some.inj hentry]
      rfl
    · rfl
  rw [Table.set, hsame]

end Numbered

end WebSocket.Table
