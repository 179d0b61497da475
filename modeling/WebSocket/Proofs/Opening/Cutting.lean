import Mathlib.Data.List.Infix
import WebSocket.Opening.Headers

/-!
# Parts of a text

A mark sets the parts of a text apart if they give the text when they are joined with the mark, and
none of them holds the mark (`Parts`).  CR LF sets the lines of a text apart and a single character
its pieces, and nothing else does so:

    Parts lineEnd text parts ↔ lines text = parts            (parts_iff_lines)
    Parts [c] text parts ↔ pieces c text = parts             (parts_iff_pieces)
-/

namespace WebSocket.Opening

/-- The parts of a text that a mark sets apart. -/
structure Parts (mark text : List Char) (parts : List (List Char)) : Prop where
  joined : mark.intercalate parts = text
  ne_nil : parts ≠ []
  free : ∀ part ∈ parts, ¬ mark <:+: part

/-- The end of a line, CR LF. -/
def lineEnd : List Char := ['\r', '\n']

variable {mark text part rest : List Char} {parts : List (List Char)} {c : Char}

theorem attach_ne_nil (c : Char) (parts : List (List Char)) : attach c parts ≠ [] := by
  cases parts <;> nofun

theorem intercalate_attach (hne : parts ≠ []) :
    mark.intercalate (attach c parts) = c :: mark.intercalate parts := by
  cases parts with
  | nil => exact absurd rfl hne
  | cons first later => exact List.intercalate_cons_cons_left

/-- Where a text begins with its first part, a character before the text goes to that part. -/
theorem mem_attach (mark : List Char) (hne : parts ≠ []) (h : part ∈ attach c parts) :
    part ∈ parts ∨ ∃ first, part = c :: first ∧ first ∈ parts ∧
      first <+: mark.intercalate parts := by
  obtain ⟨first, later, rfl⟩ := List.exists_cons_of_ne_nil hne
  rcases List.mem_cons.mp h with rfl | h
  · refine .inr ⟨first, rfl, List.mem_cons_self, ?_⟩
    cases later with
    | nil => rw [List.intercalate_singleton]
    | cons second later =>
      rw [List.intercalate_cons_cons, List.append_assoc]
      exact List.prefix_append ..
  · exact .inl (List.mem_cons_of_mem _ h)

/-! ## Pieces -/

theorem pieces_eq_splitOn (c : Char) (text : List Char) : pieces c text = text.splitOn c := by
  induction text with
  | nil => rfl
  | cons d rest ih =>
    rw [pieces, ih, List.splitOn_cons_eq_if_modifyHead]
    by_cases hd : d = c
    · simp [hd]
    · -- The first piece is there, so the character joins it.
      obtain ⟨first, later, hsplit⟩ := List.exists_cons_of_ne_nil (List.splitOn_ne_nil c rest)
      simp [hd, hsplit, attach]

theorem pieces_ne_nil (c : Char) (text : List Char) : pieces c text ≠ [] := by
  rw [pieces_eq_splitOn]
  exact List.splitOn_ne_nil c text

theorem not_mem_of_mem_pieces (h : part ∈ pieces c text) : c ∉ part := by
  induction text generalizing part with
  | nil =>
    obtain rfl := List.mem_singleton.mp h
    exact List.not_mem_nil
  | cons d rest ih =>
    rw [pieces] at h
    split at h
    · rcases List.mem_cons.mp h with rfl | h
      · exact List.not_mem_nil
      · exact ih h
    · rename_i hd
      rcases mem_attach [c] (pieces_ne_nil c rest) h with h | ⟨first, rfl, hfirst, -⟩
      · exact ih h
      · exact List.not_mem_cons_of_ne_of_not_mem (Ne.symm hd) (ih hfirst)

theorem parts_iff_pieces : Parts [c] text parts ↔ pieces c text = parts := by
  constructor
  · rintro ⟨rfl, hne, hfree⟩
    rw [pieces_eq_splitOn]
    refine List.splitOn_intercalate c (fun part hmem => ?_) hne
    rw [← List.singleton_infix_iff]
    exact hfree part hmem
  · rintro rfl
    refine ⟨?_, pieces_ne_nil c text, fun part hmem => ?_⟩
    · rw [pieces_eq_splitOn, List.intercalate_splitOn]
    · rw [List.singleton_infix_iff]
      exact not_mem_of_mem_pieces hmem

/-! ## Lines -/

theorem lines_cons (h : ¬ lineEnd <+: c :: rest) : lines (c :: rest) = attach c (lines rest) := by
  rw [lines]
  rintro later rfl rfl
  exact h ⟨later, rfl⟩

theorem lines_ne_nil (text : List Char) : lines text ≠ [] := by
  fun_cases lines text with
  | case1 => nofun
  | case2 => nofun
  | case3 c rest => exact attach_ne_nil c (lines rest)

theorem lines_of_free (h : ¬ lineEnd <:+: part) : lines part = [part] := by
  induction part with
  | nil => rfl
  | cons c part ih =>
    rw [lines_cons fun hprefix => h hprefix.isInfix, ih fun hinfix => h (List.infix_cons hinfix)]
    rfl

/-- What stands before the first end of a line is a line. -/
theorem lines_append (h : ¬ lineEnd <:+: part) (rest : List Char) :
    lines (part ++ lineEnd ++ rest) = part :: lines rest := by
  induction part with
  | nil => rfl
  | cons c part ih =>
    have hprefix : ¬ lineEnd <+: c :: (part ++ lineEnd ++ rest) := by
      intro hprefix
      cases part with
      | nil =>
        have hsecond := (List.cons_prefix_cons.mp hprefix).2
        exact absurd (List.cons_prefix_cons.mp hsecond).1 (by decide)
      | cons d part =>
        -- The first two characters both belong to the line.
        obtain ⟨rfl, hsecond⟩ := List.cons_prefix_cons.mp hprefix
        obtain ⟨rfl, -⟩ := List.cons_prefix_cons.mp hsecond
        exact h (List.prefix_append lineEnd part).isInfix
    rw [List.cons_append, List.cons_append, lines_cons hprefix,
      ih fun hinfix => h (List.infix_cons hinfix)]
    rfl

theorem lines_intercalate (hne : parts ≠ []) (hfree : ∀ part ∈ parts, ¬ lineEnd <:+: part) :
    lines (lineEnd.intercalate parts) = parts := by
  induction parts with
  | nil => exact absurd rfl hne
  | cons first later ih =>
    have hfirst := hfree first List.mem_cons_self
    cases later with
    | nil => rw [List.intercalate_singleton, lines_of_free hfirst]
    | cons second later =>
      rw [List.intercalate_cons_cons, lines_append hfirst, ih (by nofun)]
      exact fun part hmem => hfree part (List.mem_cons_of_mem _ hmem)

theorem intercalate_lines (text : List Char) : lineEnd.intercalate (lines text) = text := by
  fun_induction lines text with
  | case1 => rfl
  | case2 rest ih =>
    rw [List.intercalate_cons_of_ne_nil (lines_ne_nil rest), ih]
    rfl
  | case3 c rest _ ih => rw [intercalate_attach (lines_ne_nil rest), ih]

theorem free_of_mem_lines (h : part ∈ lines text) : ¬ lineEnd <:+: part := by
  fun_induction lines text generalizing part with
  | case1 =>
    obtain rfl := List.mem_singleton.mp h
    decide
  | case2 rest ih =>
    rcases List.mem_cons.mp h with rfl | h
    · decide
    · exact ih h
  | case3 c rest hother ih =>
    rcases mem_attach lineEnd (lines_ne_nil rest) h with h | ⟨first, rfl, hfirst, hprefix⟩
    · exact ih h
    · rw [List.infix_cons_iff]
      rintro (hbegins | hinfix)
      · -- A line that began with CR LF would begin the text with it.
        obtain ⟨hc, hsecond⟩ := List.cons_prefix_cons.mp hbegins
        rw [intercalate_lines] at hprefix
        obtain ⟨later, hrest⟩ := hsecond.trans hprefix
        exact hother later hc.symm hrest.symm
      · exact ih hfirst hinfix

theorem parts_iff_lines : Parts lineEnd text parts ↔ lines text = parts := by
  constructor
  · rintro ⟨rfl, hne, hfree⟩
    exact lines_intercalate hne hfree
  · rintro rfl
    exact ⟨intercalate_lines text, lines_ne_nil text, fun part => free_of_mem_lines⟩

end WebSocket.Opening
