import Mathlib.Data.List.Basic
import WebSocket.Opening.RequestReader

/-!
# Where a request ends

The head of a request ends with the first blank line of the client's octets (`HeadEnds`).  How a
request is read depends on these octets and their end only, not on the pieces in which they come
(`readRequest_settles`): the search goes on three octets before those that are new, and no blank line
begins earlier (`Searched`).
-/

namespace WebSocket.Opening

/-! ## Blank lines -/

def blankLine : Bytes := [13, 10, 13, 10]

def BlankLineAt (octets : Bytes) (n : Nat) : Prop := blankLine <+: octets.drop n

/-- No blank line begins before the octet `n`. -/
def Searched (octets : Bytes) (n : Nat) : Prop := ∀ m < n, ¬ BlankLineAt octets m

def HeadEnds (octets : Bytes) (e : Nat) : Prop :=
  ∃ n, e = n + 4 ∧ BlankLineAt octets n ∧ Searched octets n

variable {octets more : Bytes} {n e position limit searched : Nat}

theorem searched_zero (octets : Bytes) : Searched octets 0 :=
  fun m hm => absurd hm (Nat.not_lt_zero m)

theorem BlankLineAt.le_length (h : BlankLineAt octets n) : n + 4 ≤ octets.length := by
  have hlength := h.length_le
  rw [List.length_drop] at hlength
  simp only [blankLine, List.length_cons, List.length_nil] at hlength
  omega

theorem HeadEnds.le_length (h : HeadEnds octets e) : e ≤ octets.length := by
  obtain ⟨n, rfl, hat, -⟩ := h
  exact hat.le_length

theorem HeadEnds.unique {e' : Nat} (h : HeadEnds octets e) (h' : HeadEnds octets e') : e = e' := by
  obtain ⟨n, rfl, hat, hfirst⟩ := h
  obtain ⟨n', rfl, hat', hfirst'⟩ := h'
  rcases Nat.lt_trichotomy n n' with hlt | rfl | hlt
  · exact absurd hat (hfirst' n hlt)
  · rfl
  · exact absurd hat' (hfirst n' hlt)

/-- Whether a blank line stands among the first octets does not depend on what follows them. -/
theorem blankLineAt_append (h : n + 4 ≤ octets.length) :
    BlankLineAt (octets ++ more) n ↔ BlankLineAt octets n := by
  unfold BlankLineAt
  rw [List.drop_append_of_le_length (by omega)]
  have hlength : blankLine.length ≤ (octets.drop n).length := by
    rw [List.length_drop]
    simp only [blankLine, List.length_cons, List.length_nil]
    omega
  constructor
  · intro h
    exact List.prefix_of_prefix_length_le h (List.prefix_append ..) hlength
  · intro h
    exact h.trans (List.prefix_append ..)

theorem searched_append (h : n ≤ octets.length - 3) :
    Searched (octets ++ more) n ↔ Searched octets n := by
  constructor
  · intro hs m hm hat
    exact hs m hm ((blankLineAt_append (by omega)).mpr hat)
  · intro hs m hm hat
    exact hs m hm ((blankLineAt_append (by omega)).mp hat)

/-- An end of the head that is there does not depend on what follows it. -/
theorem headEnds_append (h : e ≤ octets.length) (more : Bytes) :
    HeadEnds (octets ++ more) e ↔ HeadEnds octets e := by
  unfold HeadEnds
  constructor
  · rintro ⟨n, rfl, hat, hs⟩
    exact ⟨n, rfl, (blankLineAt_append h).mp hat, (searched_append (by omega)).mp hs⟩
  · rintro ⟨n, rfl, hat, hs⟩
    exact ⟨n, rfl, (blankLineAt_append h).mpr hat, (searched_append (by omega)).mpr hs⟩

/-! ## The search -/

theorem blankLineFrom?_of_begins (h : blankLine <+: octets) :
    blankLineFrom? position octets = some (position + 4) := by
  obtain ⟨rest, rfl⟩ := h
  rfl

theorem blankLineFrom?_of_not_begins {b : UInt8} {rest : Bytes} (h : ¬ blankLine <+: b :: rest) :
    blankLineFrom? position (b :: rest) = blankLineFrom? (position + 1) rest := by
  rw [blankLineFrom?]
  rintro later rfl rfl
  exact h ⟨later, rfl⟩

/-- The search finds the first blank line. -/
theorem blankLineFrom?_eq_some_iff :
    blankLineFrom? position octets = some e ↔ ∃ e', e = position + e' ∧ HeadEnds octets e' := by
  induction octets generalizing position with
  | nil =>
    constructor
    · intro h
      cases h
    · rintro ⟨e', -, hends⟩
      have := hends.le_length
      obtain ⟨n, rfl, -⟩ := hends
      simp at this
  | cons b rest ih =>
    by_cases hfirst : blankLine <+: b :: rest
    · have hends : HeadEnds (b :: rest) 4 := ⟨0, rfl, hfirst, fun m hm => by omega⟩
      rw [blankLineFrom?_of_begins hfirst]
      constructor
      · intro h
        exact ⟨4, (Option.some.inj h).symm, hends⟩
      · rintro ⟨e', rfl, hends'⟩
        rw [hends.unique hends']
    · -- Nothing begins at the first octet, so every place counts one more than in the rest.
      rw [blankLineFrom?_of_not_begins hfirst, ih]
      constructor
      · rintro ⟨e', rfl, n, rfl, hat, hs⟩
        refine ⟨n + 1 + 4, by omega, n + 1, rfl, hat, ?_⟩
        intro m hm hm'
        cases m with
        | zero => exact hfirst hm'
        | succ m => exact hs m (by omega) hm'
      · rintro ⟨e', rfl, n, rfl, hat, hs⟩
        cases n with
        | zero => exact absurd hat hfirst
        | succ n =>
          exact ⟨n + 4, by omega, n, rfl, hat, fun m hm => hs (m + 1) (by omega)⟩

theorem blankLine?_eq_some_iff : blankLine? octets = some e ↔ HeadEnds octets e := by
  rw [blankLine?, blankLineFrom?_eq_some_iff]
  constructor
  · rintro ⟨e', rfl, hends⟩
    rwa [Nat.zero_add]
  · intro hends
    exact ⟨e, (Nat.zero_add e).symm, hends⟩

/-- What was searched need not be searched again. -/
theorem blankLineFrom?_drop (h : Searched octets n) :
    blankLineFrom? n (octets.drop n) = blankLine? octets := by
  apply Option.ext
  intro e
  rw [blankLine?_eq_some_iff, blankLineFrom?_eq_some_iff]
  have hat : ∀ m, BlankLineAt (octets.drop n) m ↔ BlankLineAt octets (n + m) := by
    intro m
    unfold BlankLineAt
    rw [List.drop_drop]
  constructor
  · rintro ⟨e', rfl, m, rfl, hm, hs⟩
    refine ⟨n + m, by omega, (hat m).mp hm, ?_⟩
    intro k hk hk'
    rcases Nat.lt_or_ge k n with hlt | hge
    · exact h k hlt hk'
    · have hback := (hat (k - n)).mpr (by rwa [Nat.add_sub_cancel' hge])
      exact hs (k - n) (by omega) hback
  · rintro ⟨m, rfl, hm, hs⟩
    have hge : n ≤ m := Nat.le_of_not_lt fun hlt => h m hlt hm
    refine ⟨m - n + 4, by omega, m - n, rfl, ?_, ?_⟩
    · exact (hat (m - n)).mpr (by rwa [Nat.add_sub_cancel' hge])
    · intro k hk hk'
      exact hs (n + k) (by omega) ((hat k).mp hk')

theorem blankLine?_eq_none_iff : blankLine? octets = none ↔ ∀ e, ¬ HeadEnds octets e := by
  rw [Option.eq_none_iff_forall_ne_some]
  exact forall_congr' fun e => not_congr blankLine?_eq_some_iff

/-- What is found among the octets received so far. -/
inductive Inspects (limit : Nat) (octets : Bytes) : Verdict → Prop
  | fits {e : Nat} : HeadEnds octets e → e ≤ limit →
      Inspects limit octets (.complete ⟨octets.take e, octets.drop e⟩)
  | exceeds : (∀ e, HeadEnds octets e → limit < e) → limit ≤ octets.length →
      Inspects limit octets .tooLarge
  | incomplete : (∀ e, ¬ HeadEnds octets e) → octets.length < limit →
      Inspects limit octets .incomplete

theorem inspects (limit : Nat) (h : Searched octets searched) :
    Inspects limit octets (inspect limit searched octets) := by
  rw [inspect, blankLineFrom?_drop h]
  cases hfound : blankLine? octets with
  | some e =>
    have hends := blankLine?_eq_some_iff.mp hfound
    dsimp only
    split
    · rename_i hlate
      have := hends.le_length
      exact .exceeds (fun e' hends' => hends'.unique hends ▸ hlate) (by omega)
    · exact .fits hends (by omega)
  | none =>
    have hnone := blankLine?_eq_none_iff.mp hfound
    dsimp only
    split
    · exact .exceeds (fun e hends => absurd hends (hnone e)) (by assumption)
    · exact .incomplete hnone (by omega)

/-- As long as no head has ended, no blank line begins before the last three octets, whatever
comes. -/
theorem searched_searchedIn (h : ∀ e, ¬ HeadEnds octets e) (more : Bytes) :
    Searched (octets ++ more) (searchedIn octets) := by
  unfold searchedIn
  rw [searched_append (Nat.le_refl _)]
  intro m hm hat
  -- The first blank line there is would be where a head ends.
  induction m using Nat.strongRecOn with
  | _ m ih => exact h (m + 4) ⟨m, rfl, hat, fun k hk hk' => ih k hk (by omega) hk'⟩

/-! ## Reading -/

/-- What is to come of reading a request, by the client's octets and how they end. -/
structure Settles (limit : Nat) (fault : Fault) (octets : Bytes)
    (result : Except OpeningError ReadRequest) : Prop where
  /-- A head that fits is read, and nothing of what follows it is lost. -/
  fits : ∀ e, HeadEnds octets e → e ≤ limit → ∃ read, result = .ok read ∧
    read.request.head = octets.take e ∧
    read.request.leftover ++ read.unread.flatten = octets.drop e
  exceeds : (∀ e, HeadEnds octets e → limit < e) → limit ≤ octets.length →
    result = .error (.requestTooLarge limit)
  /-- The octets end too early. -/
  fails : (∀ e, HeadEnds octets e → limit < e) → octets.length < limit →
    result = .error (.stream fault)

variable {fault : Fault} {received : Bytes} {source : List Bytes}

theorem late_append (hlate : ∀ e, HeadEnds octets e → limit < e) (hlong : limit ≤ octets.length)
    (more : Bytes) : ∀ e, HeadEnds (octets ++ more) e → limit < e := by
  intro e hends
  rcases Nat.lt_or_ge octets.length e with hlt | hge
  · omega
  · exact hlate e ((headEnds_append hge more).mp hends)

/-- What comes of reading on is settled by what was received and what the source still holds. -/
theorem readFrom_settles (hs : Searched received searched) :
    Settles limit fault (received ++ source.flatten)
      (readFrom limit fault searched received source) := by
  fun_induction readFrom limit fault searched received source with
  | case1 source searched received request hverdict =>
    have hinspects := inspects limit hs
    rw [hverdict] at hinspects
    cases hinspects with
    | @fits e hends hfits =>
      have hends' := (headEnds_append hends.le_length source.flatten).mpr hends
      refine ⟨?_, fun hlate _ => ?_, fun hlate _ => ?_⟩
      · intro e' hends'' _
        obtain rfl := hends''.unique hends'
        refine ⟨_, rfl, ?_, ?_⟩
        · exact (List.take_append_of_le_length hends.le_length).symm
        · exact (List.drop_append_of_le_length hends.le_length).symm
      · have := hlate e hends'
        omega
      · have := hlate e hends'
        omega
  | case2 source searched received hverdict =>
    have hinspects := inspects limit hs
    rw [hverdict] at hinspects
    cases hinspects with
    | exceeds hlate hlong =>
      refine ⟨fun e hends hfits => ?_, fun _ _ => rfl, fun _ hshort => ?_⟩
      · have := late_append hlate hlong _ e hends
        omega
      · rw [List.length_append] at hshort
        omega
  | case3 searched received hverdict =>
    have hinspects := inspects limit hs
    rw [hverdict] at hinspects
    rw [List.flatten_nil, List.append_nil]
    cases hinspects with
    | incomplete hnone hshort =>
      refine ⟨fun e hends _ => absurd hends (hnone e), fun _ hlong => ?_, fun _ _ => rfl⟩
      omega
  | case4 searched received hverdict piece source ih =>
    have hinspects := inspects limit hs
    rw [hverdict] at hinspects
    cases hinspects with
    | incomplete hnone hshort =>
      rw [List.flatten_cons, ← List.append_assoc]
      exact ih (searched_searchedIn hnone piece)

/-- How a request is read depends on the octets and their end, and not on how they arrive. -/
theorem readRequest_settles (limit : Nat) (fault : Fault) (source : List Bytes) :
    Settles limit fault source.flatten (readRequest limit fault [] source) :=
  readFrom_settles (searched_zero [])

/-- The same octets in other pieces: a blank line in parts, and the first octets of a frame. -/
example : readRequest 8 .unexpectedEof [] [[65, 13], [10, 13], [10, 129]] =
    .ok ⟨⟨[65, 13, 10, 13, 10], [129]⟩, []⟩ := by
  decide

end WebSocket.Opening
