import WebSocket.Proofs.Opening.Reading
import WebSocket.Proofs.Opening.Requests
import WebSocket.Proofs.Text.Characters

/-!
# Heads and their lines

The head of a request is found by its octets: it ends with the first blank line (`IsHead`).  Its
lines are found later, in the text, and the header lines end with the first empty one.  Both come to
the same.  Every line of a head is its first line, a header line or the blank line at its end, and
what follows a head is never taken for a header (`heads_bounded`):

    written (first :: headerLines) ++ lineEnd = text
    negotiate (head ++ Bytes.ofString more) = negotiate head
-/

namespace WebSocket.Opening

/-! ## Written lines -/

def written (parts : List (List Char)) : List Char := parts.flatMap (· ++ lineEnd)

variable {first : List Char} {parts later : List (List Char)} {octets more head : Bytes}

@[simp] theorem written_append (parts more : List (List Char)) :
    written (parts ++ more) = written parts ++ written more :=
  List.flatMap_append ..

@[simp] theorem written_cons (part : List Char) (parts : List (List Char)) :
    written (part :: parts) = part ++ lineEnd ++ written parts := rfl

theorem written_eq_intercalate (hne : parts ≠ []) :
    written parts = lineEnd.intercalate parts ++ lineEnd := by
  induction parts with
  | nil => exact absurd rfl hne
  | cons part parts ih =>
    cases parts with
    | nil => simp [written]
    | cons second parts =>
      rw [written_cons, ih (by nofun), List.intercalate_cons_cons]
      simp only [List.append_assoc]

theorem written_lines (text : List Char) : written (lines text) = text ++ lineEnd := by
  rw [written_eq_intercalate (lines_ne_nil text), intercalate_lines]

theorem lines_written_append (hfree : ∀ part ∈ parts, ¬ lineEnd <:+: part) (rest : List Char) :
    lines (written parts ++ rest) = parts ++ lines rest := by
  induction parts with
  | nil => rfl
  | cons part parts ih =>
    obtain ⟨hpart, hparts⟩ := List.forall_mem_cons.mp hfree
    rw [written_cons, List.append_assoc, lines_append hpart, ih hparts]
    rfl

/-! ## Header lines -/

/-- The header lines end with the first empty line. -/
theorem readHeaders_takeWhile (headers : Headers) (parts : List (List Char)) :
    readHeaders headers (parts.takeWhile fun line => !line.isEmpty) = readHeaders headers parts := by
  fun_induction readHeaders headers parts with
  | case1 | case2 => rfl
  | case3 headers line later hne hline =>
    rw [List.takeWhile_cons_of_pos (by simpa using hne), readHeaders.eq_3 _ _ _ hne, hline]
  | case4 headers line later hne name value hline ih =>
    rw [List.takeWhile_cons_of_pos (by simpa using hne), readHeaders.eq_3 _ _ _ hne, hline]
    exact ih

theorem checkLines_takeWhile (first : List Char) (later : List (List Char)) :
    checkLines first (later.takeWhile fun line => !line.isEmpty) = checkLines first later := by
  simp only [checkLines, readHeaders_takeWhile]

theorem takeWhile_append_blank (h : ∀ line ∈ later, line ≠ []) (rest : List (List Char)) :
    ((later ++ [] :: rest).takeWhile fun line => !line.isEmpty) = later := by
  rw [List.takeWhile_append_of_pos fun line hmem => by simpa using h line hmem]
  simp

/-! ## Heads -/

/-- Octets that end with their first blank line. -/
def IsHead (octets : Bytes) : Prop := HeadEnds octets octets.length

instance (octets : Bytes) : Decidable (IsHead octets) :=
  decidable_of_iff _ blankLine?_eq_some_iff

theorem ofChars_blank : Bytes.ofChars (lineEnd ++ lineEnd) = blankLine := by decide +kernel

theorem IsHead.exists_body (h : IsHead head) : ∃ body, head = body ++ blankLine := by
  obtain ⟨n, hlength, hat, -⟩ := h
  refine ⟨head.take n, ?_⟩
  have hdrop : blankLine = head.drop n := by
    refine hat.eq_of_length ?_
    rw [List.length_drop, hlength, Nat.add_sub_cancel_left]
    rfl
  rw [hdrop, List.take_append_drop]

/-- A head has no blank line but that at its end. -/
theorem IsHead.eq_nil (h : IsHead (octets ++ blankLine ++ more)) : more = [] := by
  obtain ⟨n, hlength, -, hsearched⟩ := h
  have hat : BlankLineAt (octets ++ blankLine ++ more) octets.length := by
    rw [BlankLineAt, List.append_assoc, List.drop_left]
    exact List.prefix_append ..
  have hlate : n ≤ octets.length := Nat.le_of_not_lt fun hlt => hsearched _ hlt hat
  rw [List.length_append, List.length_append] at hlength
  have hfour : blankLine.length = 4 := rfl
  exact List.eq_nil_of_length_eq_zero (by omega)

/-- The lines of a head are its first line, lines that are not empty, and the blank line. -/
theorem IsHead.exists_lines {text : String} (h : IsHead (Bytes.ofString text)) :
    ∃ first later, text.toList = written (first :: later) ++ lineEnd ∧
      (∀ line ∈ first :: later, ¬ lineEnd <:+: line) ∧ ∀ line ∈ later, line ≠ [] := by
  obtain ⟨body, hbody⟩ := h.exists_body
  rw [Bytes.ofString_eq, ← ofChars_blank, Bytes.ofChars_eq_append] at hbody
  obtain ⟨body, -, htext⟩ := hbody
  obtain ⟨first, later, hlines⟩ := List.exists_cons_of_ne_nil (lines_ne_nil body)
  have hwritten : text.toList = written (first :: later) ++ lineEnd := by
    rw [htext, ← hlines, written_lines, List.append_assoc]
  refine ⟨first, later, hwritten, hlines ▸ fun line => free_of_mem_lines, ?_⟩
  rintro _ hmem rfl
  -- An empty line would be part of an earlier blank line.
  obtain ⟨before, after, rfl⟩ := List.append_of_mem hmem
  have hsplit : text.toList = lineEnd.intercalate (first :: before) ++ (lineEnd ++ lineEnd) ++
      (written after ++ lineEnd) := by
    rw [hwritten, ← List.cons_append, written_append, written_eq_intercalate (by nofun)]
    simp only [written_cons, List.nil_append, List.append_assoc]
  rw [Bytes.ofString_eq, hsplit, Bytes.ofChars_append, Bytes.ofChars_append, ofChars_blank] at h
  have hempty := Bytes.ofChars_injective (h.eq_nil.trans Bytes.ofChars_nil.symm)
  exact absurd (List.append_eq_nil_iff.mp hempty).2 (by decide)

/-! ## What is read -/

theorem isHead_of_readRequest {limit : Nat} {fault : Fault} {source : List Bytes}
    {read : ReadRequest} (h : readRequest limit fault [] source = .ok read) :
    IsHead read.request.head := by
  obtain ⟨hfits, hexceeds, hfails⟩ := readRequest_settles limit fault source
  by_cases hends : ∃ e, HeadEnds source.flatten e ∧ e ≤ limit
  · obtain ⟨e, hends, hle⟩ := hends
    obtain ⟨read', hread', hhead, -⟩ := hfits e hends hle
    obtain rfl := Except.ok.inj (h.symm.trans hread')
    have hlength : (source.flatten.take e).length = e := List.length_take_of_le hends.le_length
    rw [← List.take_append_drop e source.flatten, headEnds_append hlength.ge] at hends
    rw [hhead, IsHead, hlength]
    exact hends
  · -- Without a head that fits nothing is read.
    have hlate : ∀ e, HeadEnds source.flatten e → limit < e := fun e he =>
      Nat.lt_of_not_le fun hle => hends ⟨e, he, hle⟩
    rcases Nat.lt_or_ge source.flatten.length limit with hshort | hlong
    · rw [hfails hlate hshort] at h
      cases h
    · rw [hexceeds hlate hlong] at h
      cases h

/-- Every head can be read. -/
theorem IsHead.exists_readRequest (h : IsHead head) :
    ∃ limit fault source read, readRequest limit fault [] source = .ok read ∧
      read.request.head = head := by
  obtain ⟨hfits, -, -⟩ := readRequest_settles head.length .unexpectedEof [head]
  obtain ⟨read, hread, hhead, -⟩ := hfits head.length (by simpa [IsHead] using h) (Nat.le_refl _)
  exact ⟨_, _, _, read, hread, by simpa using hhead⟩

/-! ## Where a request ends -/

/-- What is taken for the lines of a head. -/
structure Bounded (head : Bytes) : Prop where
  /-- No line is skipped: those that are checked make up the whole head. -/
  whole : ∀ text : String, head = Bytes.ofString text → ∃ first later,
    lines text.toList = first :: later ∧
      let headerLines := later.takeWhile fun line => !line.isEmpty
      written (first :: headerLines) ++ lineEnd = text.toList ∧
        checkRequest head = checkLines first headerLines
  /-- Nothing that follows acts as a header. -/
  after : ∀ more : String, negotiate (head ++ Bytes.ofString more) = negotiate head

theorem checkRequest_of_lines {text : String} (h : lines text.toList = first :: later) :
    checkRequest (Bytes.ofString text) = checkLines first later := by
  simp only [checkRequest, Bytes.toString?_ofString, h]

theorem IsHead.checkRequest_append (h : IsHead head) (more : String) :
    checkRequest (head ++ Bytes.ofString more) = checkRequest head := by
  cases hread : head.toString? with
  | some text =>
    obtain rfl := Bytes.toString?_eq_some_iff.mp hread
    obtain ⟨first, later, htext, hfree, hne⟩ := h.exists_lines
    have hlines (rest : List Char) : lines (text.toList ++ rest) =
        first :: (later ++ [] :: lines rest) := by
      rw [htext, List.append_assoc, lines_written_append hfree]
      rfl
    have hhead := hlines []
    have hmore := hlines more.toList
    rw [List.append_nil] at hhead
    rw [← String.toList_append] at hmore
    rw [← Bytes.ofString_append, checkRequest_of_lines hhead, checkRequest_of_lines hmore,
      ← checkLines_takeWhile, ← checkLines_takeWhile first (later ++ _),
      takeWhile_append_blank hne, takeWhile_append_blank hne]
  | none =>
    have hwhole : (head ++ Bytes.ofString more).toString? = none := by
      rw [Option.eq_none_iff_forall_ne_some]
      intro text htext
      rw [Bytes.toString?_eq_some_iff, Bytes.ofString_eq, Bytes.ofString_eq, eq_comm,
        Bytes.ofChars_eq_append] at htext
      obtain ⟨earlier, rfl, -⟩ := htext
      rw [← Bytes.ofString_ofList_eq, Bytes.toString?_ofString] at hread
      cases hread
    simp only [checkRequest, hread, hwhole]

theorem IsHead.whole {text : String} (h : IsHead (Bytes.ofString text)) : ∃ first later,
    lines text.toList = first :: later ∧
      let headerLines := later.takeWhile fun line => !line.isEmpty
      written (first :: headerLines) ++ lineEnd = text.toList ∧
        checkRequest (Bytes.ofString text) = checkLines first headerLines := by
  obtain ⟨first, later, htext, hfree, hne⟩ := h.exists_lines
  have hlines : lines text.toList = first :: (later ++ [[], []]) := by
    rw [htext, lines_written_append hfree]
    rfl
  refine ⟨first, later ++ [[], []], hlines, ?_, ?_⟩
  · rw [takeWhile_append_blank hne, htext]
  · rw [checkLines_takeWhile, checkRequest_of_lines hlines]

/-- The heads that can be read are the octets that end with their first blank line.  Of each of them
no line is skipped, and nothing that comes after it counts. -/
theorem heads_bounded (head : Bytes) :
    (IsHead head ↔ ∃ limit fault source read, readRequest limit fault [] source = .ok read ∧
      read.request.head = head) ∧ (IsHead head → Bounded head) := by
  refine ⟨⟨IsHead.exists_readRequest, ?_⟩, fun h => ⟨?_, fun more => ?_⟩⟩
  · rintro ⟨limit, fault, source, read, hread, rfl⟩
    exact isHead_of_readRequest hread
  · rintro text rfl
    exact h.whole
  · simp only [negotiate, h.checkRequest_append]

/-- A header line that looks like the start of a blank line, and a header that comes too late. -/
theorem heads_bounded_late :
    let head := Bytes.ofString ("GET / HTTP/1.1\r\nConnection: Upgrade\r\n" ++
      "Sec-WebSocket-Key: dGhlIHNhbXBsZSBub25jZQ==\r\né: \r\r\n\r\n")
    let more := "Upgrade: websocket\r\n\r\n"
    IsHead head ∧ Bounded head ∧ (negotiate (head ++ Bytes.ofString more)).isAccepted = false := by
  intro head more
  have hhead : IsHead head := by decide +kernel
  have hbounded := (heads_bounded head).2 hhead
  refine ⟨hhead, hbounded, ?_⟩
  rw [hbounded.after]
  decide +kernel

end WebSocket.Opening
