import WebSocket.Proofs.Opening.Grouping

/-!
# Names that stand in several lines

The values of all lines with one name are joined, each behind those of the lines before it, with a
comma and a space between them.  A value may hold commas of its own, begin or end with one, or be
empty, and the joined value does not show where one ends and the next begins.  Still it lists what
the values list, and nothing else (`hasToken_intercalate`):

    headers.get? (lower name) = ", ".intercalate values
    hasToken (", ".intercalate values) token ↔ ∃ value ∈ values, hasToken value token
-/

namespace WebSocket.Opening

variable {lines values : List (List Char)} {fields : List Field} {headers : Headers}

/-! ## Joined values -/

theorem intercalate_concat {mark : List Char} {parts : List (List Char)} (hne : parts ≠ [])
    (part : List Char) :
    mark.intercalate (parts ++ [part]) = mark.intercalate parts ++ mark ++ part := by
  induction parts with
  | nil => exact absurd rfl hne
  | cons first later ih =>
    cases later with
    | nil =>
      rw [List.singleton_append, List.intercalate_cons_cons, List.intercalate_singleton,
        List.intercalate_singleton]
    | cons second later =>
      rw [List.cons_append, List.intercalate_cons_of_ne_nil (by simp), ih (by nofun),
        List.intercalate_cons_cons]
      simp only [List.append_assoc]

/-- A further field puts its value behind what stands under its name, and no other name changes. -/
theorem combined_concat (fields : List Field) (field : Field) (name : List Char) :
    combined (fields ++ [field]) name =
      if name = field.1 then
        some ((combined fields name).elim field.2 (· ++ ", ".toList ++ field.2))
      else combined fields name := by
  obtain ⟨n, value⟩ := field
  by_cases hname : name = n
  · subst hname
    rw [if_pos rfl, combined_of_ne_nil (by simp [valuesOf_append, valuesOf_singleton]),
      valuesOf_append, valuesOf_singleton]
    by_cases hnone : valuesOf fields name = []
    · rw [hnone, combined_eq_none_iff.mpr hnone, List.nil_append, List.intercalate_singleton]
      rfl
    · rw [combined_of_ne_nil hnone, intercalate_concat hnone]
      rfl
  · have hlast : valuesOf [(n, value)] name = [] := valuesOf_cons_of_ne (Ne.symm hname) []
    rw [if_neg hname, combined, combined, valuesOf_append, hlast, List.append_nil]

/-- No token is lost where values are joined, and none comes about. -/
theorem hasToken_intercalate (hne : values ≠ []) (token : String) :
    hasToken (", ".toList.intercalate values) token = true ↔
      ∃ value ∈ values, hasToken value token = true := by
  simp only [hasToken_iff, lists_iff, itemsOf_intercalate hne, List.mem_flatMap]

theorem hasToken_combined (fields : List Field) (name : List Char) (token : String) :
    (∃ value, combined fields name = some value ∧ hasToken value token = true) ↔
      ∃ value, (name, value) ∈ fields ∧ hasToken value token = true := by
  calc (∃ value, combined fields name = some value ∧ hasToken value token = true)
      ↔ HasListed fields name (lower token.toList) := by simp only [HasListed, hasToken_iff]
    _ ↔ lower token.toList ∈ (valuesOf fields name).flatMap itemsOf := hasListed_iff
    _ ↔ ∃ value, (name, value) ∈ fields ∧ hasToken value token = true := by
      simp only [List.mem_flatMap, mem_valuesOf, hasToken_iff, lists_iff]

/-! ## Reading header lines -/

theorem lower_names (h : List.Forall₂ IsField lines fields) :
    ∀ field ∈ fields, lower field.1 = field.1 := by
  induction h with
  | nil => nofun
  | cons hline _ ih =>
    refine List.forall_mem_cons.mpr ⟨?_, ih⟩
    obtain ⟨name, value, -, -, -, rfl⟩ := hline
    exact lower_lower _

theorem exists_readHeaders (h : List.Forall₂ IsField lines fields) :
    ∃ headers, readHeaders [] lines = .ok headers ∧ Holds headers fields := by
  have hwhole : (lines.takeWhile fun line => !line.isEmpty) = lines := by
    rw [List.takeWhile_eq_self_iff]
    exact fun line hmem => by simpa using ne_nil_of_fields h line hmem
  have hchecks := checks_readHeaders holds_nil lines
  rw [hwhole] at hchecks
  obtain ⟨held, hheld⟩ := exists_holds fields
  obtain ⟨headers, hread, more, hmore, hholds⟩ := hchecks.exists_ok ⟨held, fields, h, hheld⟩
  obtain rfl := fields_unique h hmore
  exact ⟨headers, hread, hholds⟩

/-- What header lines with some fields come to. -/
structure Combines (lines : List (List Char)) (fields : List Field) (headers : Headers) :
    Prop where
  /-- The values of all lines with a name are joined in the order of the lines. -/
  joined : ∀ name, valuesOf fields (lower name) ≠ [] →
    headers.get? (String.ofList (lower name)) =
      some (", ".toList.intercalate (valuesOf fields (lower name)))
  /-- There is nothing under a name exactly if no line has it. -/
  absent : ∀ name, headers.get? (String.ofList (lower name)) = none ↔
    ∀ field ∈ fields, field.1 ≠ lower name
  /-- What there is stands under names in lower case. -/
  lowered : ∀ key value, headers.get? key = some value → lower key.toList = key.toList
  /-- A token is listed under a name exactly if a line with the name lists it. -/
  tokens : ∀ name token,
    (∃ value, headers.get? (String.ofList (lower name)) = some value ∧
        hasToken value token = true) ↔
      ∃ value, (lower name, value) ∈ fields ∧ hasToken value token = true
  /-- A further line puts its value behind what stands under its name, and changes nothing else. -/
  appends : ∀ line field, IsField line field →
    ∃ headers', readHeaders [] (lines ++ [line]) = .ok headers' ∧
      ∀ key, headers'.get? key =
        if key.toList = field.1 then
          some ((headers.get? key).elim field.2 (· ++ ", ".toList ++ field.2))
        else headers.get? key

theorem Holds.combines (hfields : List.Forall₂ IsField lines fields) (h : Holds headers fields) :
    Combines lines fields headers where
  joined name hne := by rw [h.get?_eq, String.toList_ofList, combined_of_ne_nil hne]
  absent name := by
    rw [h.get?_eq, String.toList_ofList, combined_eq_none_iff, valuesOf_eq_nil_iff]
  lowered key value hkey := by
    rw [h.get?_eq] at hkey
    have hne : valuesOf fields key.toList ≠ [] := by
      rw [Ne, ← combined_eq_none_iff, hkey]
      nofun
    obtain ⟨first, hfirst⟩ := List.exists_mem_of_ne_nil _ hne
    exact lower_names hfields _ (mem_valuesOf.mp hfirst)
  tokens name token := by
    rw [h.get?_eq, String.toList_ofList, hasToken_combined]
  appends line field hline := by
    have hall : List.Forall₂ IsField (lines ++ [line]) (fields ++ [field]) :=
      List.rel_append hfields (.cons hline .nil)
    obtain ⟨headers', hread, hholds⟩ := exists_readHeaders hall
    refine ⟨headers', hread, fun key => ?_⟩
    rw [hholds.get?_eq, h.get?_eq, combined_concat]

/-- Header lines are read as the joined values of their names.  Joined values list what the values
list, which for each of them is what stands between its commas. -/
theorem repeated_combined :
    (∀ lines fields, List.Forall₂ IsField lines fields →
      ∃ headers, readHeaders [] lines = .ok headers ∧ Combines lines fields headers) ∧
    (∀ values token, values ≠ [] →
      (hasToken (", ".toList.intercalate values) token = true ↔
        ∃ value ∈ values, hasToken value token = true)) ∧
    ∀ value token, hasToken value token = true ↔ Lists value (lower token.toList) := by
  refine ⟨fun lines fields hfields => ?_, fun values token hne => hasToken_intercalate hne token,
    fun value token => hasToken_iff⟩
  obtain ⟨headers, hread, hholds⟩ := exists_readHeaders hfields
  exact ⟨headers, hread, hholds.combines hfields⟩

/-- Lists under one name in three lines, with commas at their ends, in one of them nothing. -/
theorem repeated_combined_lists :
    let lines := ["Connection: keep-alive,, foo".toList, "Upgrade:h2c:".toList,
      " CONNECTION\t:".toList, "connection: , Upgrade ,\t".toList]
    let values := ["keep-alive,, foo".toList, [], ", Upgrade ,".toList]
    let fields : List Field := [("connection".toList, "keep-alive,, foo".toList),
      ("upgrade".toList, "h2c:".toList), ("connection".toList, []),
      ("connection".toList, ", Upgrade ,".toList)]
    List.Forall₂ IsField lines fields ∧
      (∃ headers, readHeaders [] lines = .ok headers ∧ Combines lines fields headers ∧
        headers.get? "connection" = some "keep-alive,, foo, , , Upgrade ,".toList ∧
        headers.get? "origin" = none) ∧
      values ≠ [] ∧
      (hasToken (", ".toList.intercalate values) "UPGRADE" = true ↔
        ∃ value ∈ values, hasToken value "UPGRADE" = true) ∧
      Lists (", ".toList.intercalate values) "upgrade".toList := by
  intro lines values fields
  have hfields : List.Forall₂ IsField lines fields := by
    have hfirst : headerLine? "Connection: keep-alive,, foo".toList =
        some ("Connection".toList, "keep-alive,, foo".toList) := by
      decide +kernel
    have hsecond : headerLine? "Upgrade:h2c:".toList =
        some ("Upgrade".toList, "h2c:".toList) := by
      decide +kernel
    have hthird : headerLine? " CONNECTION\t:".toList = some ("CONNECTION".toList, []) := by
      decide +kernel
    have hfourth : headerLine? "connection: , Upgrade ,\t".toList =
        some ("connection".toList, ", Upgrade ,".toList) := by
      decide +kernel
    exact .cons (isField_of_headerLine? hfirst) (.cons (isField_of_headerLine? hsecond)
      (.cons (isField_of_headerLine? hthird) (.cons (isField_of_headerLine? hfourth) .nil)))
  obtain ⟨hreads, htokens, hlists⟩ := repeated_combined
  obtain ⟨headers, hread, hcombines⟩ := hreads lines fields hfields
  have hjoined := hcombines.joined "Connection".toList (by decide +kernel)
  have habsent := (hcombines.absent "Origin".toList).mpr (by decide +kernel)
  have hne : values ≠ [] := by nofun
  have hlisted := (hlists (", ".toList.intercalate values) "UPGRADE").mp (by decide +kernel)
  exact ⟨hfields, ⟨headers, hread, hcombines, hjoined, habsent⟩, hne, htokens values "UPGRADE" hne,
    hlisted⟩

end WebSocket.Opening
