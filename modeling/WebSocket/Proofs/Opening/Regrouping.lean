import WebSocket.Proofs.Opening.Grouping
import WebSocket.Proofs.Opening.Heads
import WebSocket.Proofs.Wire.Headers

/-!
# Header lines in other words

Header lines can be put in another order, the letters of their names written in either case, blanks
set around names and values, and lists taken apart or put together (`Regroups`).  Each of these
leaves the fields of the request alike (`agrees_of_regroups`), so whatever of this is done, the
request is answered as before (`negotiate_regrouped`):

    EqvGen Regroups later later' →
      (negotiate (requestOf first later)).reply = (negotiate (requestOf first later')).reply
-/

namespace WebSocket.Opening

/-! ## Requests in octets -/

structure Line where
  octets : Bytes
  free : ¬ [13, 10] <:+: octets

structure HeaderLine extends Line where
  ne_nil : octets ≠ []

def writtenOctets (lines : List Bytes) : Bytes := lines.flatMap (· ++ [13, 10])

/-- A request: its first line, the header lines and the blank line. -/
def requestOf (first : Line) (later : List HeaderLine) : Bytes :=
  writtenOctets (first.octets :: later.map fun line => line.octets) ++ [13, 10]

/-- A line with a colon: the name before the first one, and the value. -/
def HeaderLine.Has (line : HeaderLine) (name value : Bytes) : Prop :=
  line.octets = name ++ 58 :: value ∧ 58 ∉ name

instance (line : HeaderLine) (name value : Bytes) : Decidable (line.Has name value) :=
  inferInstanceAs (Decidable (_ ∧ _))

def lowerOctet (b : UInt8) : UInt8 := if 65 ≤ b ∧ b ≤ 90 then b + 32 else b

/-- Spaces and tabs may stand around the octets. -/
def Pads (core octets : Bytes) : Prop :=
  ∃ p s, (∀ b ∈ p ++ s, b = 32 ∨ b = 9) ∧ octets = p ++ core ++ s

/-- The octets are a name for a field. -/
def Names (octets : Bytes) (name : List Char) : Prop :=
  ∃ text, octets = Bytes.ofChars text ∧ lower (Text.trim text) = name

/-- What can be done to header lines. -/
inductive Regroups : List HeaderLine → List HeaderLine → Prop
  | permuted {later later' : List HeaderLine} : later.Perm later' → Regroups later later'
  /-- Letters of a name are written in the other case. -/
  | recased {before after : List HeaderLine} {line line' : HeaderLine} {name name' value : Bytes} :
      line.Has name value → line'.Has name' value →
      name.map lowerOctet = name'.map lowerOctet →
      Regroups (before ++ line :: after) (before ++ line' :: after)
  /-- Spaces and tabs around a name and a value come or go. -/
  | padded {before after : List HeaderLine} {line line' : HeaderLine}
      {name value name₁ value₁ name₂ value₂ : Bytes} :
      line.Has name₁ value₁ → line'.Has name₂ value₂ →
      Pads name name₁ → Pads name name₂ → Pads value value₁ → Pads value value₂ →
      Regroups (before ++ line :: after) (before ++ line' :: after)
  /-- A list is taken apart at a comma. -/
  | split {before after : List HeaderLine} {line one two : HeaderLine} {field : List Char}
      {name name₁ name₂ a b : Bytes} : IsList field →
      Names name field → Names name₁ field → Names name₂ field →
      line.Has name (a ++ 44 :: b) → one.Has name₁ a → two.Has name₂ b →
      Regroups (before ++ line :: after) (before ++ one :: two :: after)
  /-- Two lists are put together with a comma and a space. -/
  | merged {before after : List HeaderLine} {line one two : HeaderLine} {field : List Char}
      {name name₁ name₂ a b : Bytes} : IsList field →
      Names name field → Names name₁ field → Names name₂ field →
      one.Has name₁ a → two.Has name₂ b → line.Has name (a ++ 44 :: 32 :: b) →
      Regroups (before ++ one :: two :: after) (before ++ line :: after)

variable {octets rest name name' value value' core : Bytes} {text u : List Char} {field : Field}
  {fields : List Field} {first : Line} {line line' : HeaderLine}
  {later later' before after : List HeaderLine} {c : Char}

/-! ## Names and values -/

theorem toLower_ofUInt8 (b : UInt8) : (Char.ofUInt8 b).toLower = Char.ofUInt8 (lowerOctet b) :=
  octet_all (fun b => (Char.ofUInt8 b).toLower = Char.ofUInt8 (lowerOctet b)) (by decide +kernel) b

theorem ascii_of_lowerOctet_eq {b b' : UInt8} (h : lowerOctet b = lowerOctet b') (hne : b ≠ b') :
    b.toNat < 128 ∧ b'.toNat < 128 := by
  have hne' : b.toNat ≠ b'.toNat := fun heq => hne (UInt8.toNat_inj.mp heq)
  simp only [lowerOctet, UInt8.le_iff_toNat_le] at h
  split at h <;> split at h <;> have hnat := congrArg UInt8.toNat h <;>
    simp only [UInt8.toNat_add, UInt8.reduceToNat] at * <;> omega

/-- Octets in which letters change case are a text if they were one. -/
theorem exists_recased (pre : Bytes) (hcase : name.map lowerOctet = name'.map lowerOctet)
    (htext : Bytes.ofChars text = pre ++ name) :
    ∃ text', Bytes.ofChars text' = pre ++ name' ∧ lower text' = lower text := by
  induction name generalizing name' pre text with
  | nil =>
    obtain rfl := List.map_eq_nil_iff.mp hcase.symm
    exact ⟨text, htext, rfl⟩
  | cons b name ih =>
    obtain ⟨b', name', rfl, hhead, hlater⟩ := List.map_eq_cons_iff.mp hcase.symm
    rw [List.append_cons]
    by_cases hsame : b = b'
    · subst hsame
      exact ih _ hlater.symm (by rw [htext, List.append_cons])
    · -- Both octets are letters, which stand for themselves.
      obtain ⟨hb, hb'⟩ := ascii_of_lowerOctet_eq hhead.symm hsame
      obtain ⟨earlier, later, rfl, rfl, rfl⟩ := (Bytes.ofChars_eq_append_octet hb).mp htext
      have hletter := (Bytes.ofChars_eq_append_octet hb').mpr ⟨earlier, later, rfl, rfl, rfl⟩
      obtain ⟨text', htext', hlower⟩ := ih _ hlater.symm (hletter.trans (List.append_cons ..))
      refine ⟨text', htext', hlower.trans ?_⟩
      simp only [lower, List.map_append, List.map_cons, toLower_ofUInt8, hhead]

theorem exists_of_recased (hcase : name.map lowerOctet = name'.map lowerOctet)
    (htext : name = Bytes.ofChars text) :
    ∃ text', name' = Bytes.ofChars text' ∧ lower text' = lower text := by
  obtain ⟨text', htext', hlower⟩ := exists_recased [] hcase htext.symm
  exact ⟨text', htext'.symm, hlower⟩

theorem blank_ofUInt8 {p : Bytes} (h : ∀ b ∈ p, b = 32 ∨ b = 9) :
    Text.Blank (p.map Char.ofUInt8) := by
  intro c hc
  obtain ⟨b, hb, rfl⟩ := List.mem_map.mp hc
  rcases h b hb with rfl | rfl <;> decide

theorem ofChars_blanks {p : Bytes} (h : ∀ b ∈ p, b = 32 ∨ b = 9) :
    Bytes.ofChars (p.map Char.ofUInt8) = p :=
  Bytes.ofChars_ofUInt8 fun b hb => by rcases h b hb with rfl | rfl <;> decide

/-- Octets between spaces and tabs are a text if the whole is, and the other way round. -/
theorem Pads.exists_core (h : Pads core octets) (htext : octets = Bytes.ofChars text) :
    ∃ u, core = Bytes.ofChars u ∧ Text.trim u = Text.trim text := by
  obtain ⟨p, s, hblank, rfl⟩ := h
  obtain ⟨hp, hs⟩ := List.forall_mem_append.mp hblank
  rw [← ofChars_blanks hp, ← ofChars_blanks hs, eq_comm, Bytes.ofChars_eq_append] at htext
  obtain ⟨earlier, hearlier, rfl⟩ := htext
  obtain ⟨u, rfl, rfl⟩ := Bytes.ofChars_eq_ofChars_append.mp hearlier.symm
  exact ⟨u, rfl, (Text.trim_padded (blank_ofUInt8 hp) (blank_ofUInt8 hs) u).symm⟩

theorem Pads.exists_padded (h : Pads core octets) (htext : core = Bytes.ofChars text) :
    ∃ u, octets = Bytes.ofChars u ∧ Text.trim u = Text.trim text := by
  obtain ⟨p, s, hblank, rfl⟩ := h
  obtain ⟨hp, hs⟩ := List.forall_mem_append.mp hblank
  refine ⟨p.map Char.ofUInt8 ++ text ++ s.map Char.ofUInt8, ?_,
    Text.trim_padded (blank_ofUInt8 hp) (blank_ofUInt8 hs) text⟩
  rw [Bytes.ofChars_append, Bytes.ofChars_append, ofChars_blanks hp, ofChars_blanks hs, htext]

theorem Pads.change {octets' : Bytes} (h : Pads core octets) (h' : Pads core octets')
    (htext : octets = Bytes.ofChars text) :
    ∃ u, octets' = Bytes.ofChars u ∧ Text.trim u = Text.trim text := by
  obtain ⟨u, hu, htrim⟩ := h.exists_core htext
  obtain ⟨u', hu', htrim'⟩ := h'.exists_padded hu
  exact ⟨u', hu', htrim'.trans htrim⟩

theorem Names.unique {m m' : List Char} (h : Names name m) (h' : Names name m') : m = m' := by
  obtain ⟨text, rfl, rfl⟩ := h
  obtain ⟨text', hsame, rfl⟩ := h'
  rw [Bytes.ofChars_injective hsame]

/-! ## Reading a line -/

/-- The octets are those of a header line with a field. -/
def Reads (octets : Bytes) (field : Field) : Prop :=
  ∃ line, octets = Bytes.ofChars line ∧ IsField line field

theorem colon_not_mem (h : 58 ∉ Bytes.ofChars text) : ':' ∉ text :=
  fun hmem => h (Bytes.toUInt8_mem_ofChars (c := ':') (by decide) hmem)

/-- A line is read by its name, of which more than blanks is left, and its value. -/
theorem HeaderLine.Has.reads_iff (h : line.Has name value) : Reads line.octets field ↔
    field.1 ≠ [] ∧ Names name field.1 ∧
      ∃ text, value = Bytes.ofChars text ∧ Text.trim text = field.2 := by
  obtain ⟨hline, hfree⟩ := h
  rw [hline]
  constructor
  · rintro ⟨text, htext, hfield⟩
    obtain ⟨nameText, valueText, rfl, rfl, rfl⟩ :=
      (Bytes.ofChars_eq_append_octet (b := 58) (by decide)).mp htext.symm
    obtain ⟨n, v, hsome, rfl⟩ := isField_iff.mp hfield
    rw [show Char.ofUInt8 58 = ':' from rfl, headerLine?_append (colon_not_mem hfree)] at hsome
    split at hsome
    · cases hsome
    · rename_i hne
      obtain ⟨rfl, rfl⟩ := Prod.mk.inj (Option.some.inj hsome)
      rw [List.isEmpty_iff] at hne
      exact ⟨mt List.map_eq_nil_iff.mp hne, ⟨nameText, rfl, rfl⟩, valueText, rfl, rfl⟩
  · obtain ⟨n, v⟩ := field
    rintro ⟨hne, ⟨nameText, rfl, rfl⟩, valueText, rfl, rfl⟩
    refine ⟨nameText ++ ':' :: valueText, ?_, nameText, valueText, colon_not_mem hfree, rfl, ?_, rfl⟩
    · exact ((Bytes.ofChars_eq_append_octet (b := 58) (by decide)).mpr ⟨_, _, rfl, rfl, rfl⟩).symm
    · exact fun hblank => hne (congrArg lower hblank)

/-- Another line reads as the same field if its name and its value do. -/
theorem HeaderLine.Has.reads_of (h : line.Has name value) (h' : line'.Has name' value')
    (hname : ∀ m, Names name m → Names name' m)
    (hvalue : ∀ text, value = Bytes.ofChars text →
      ∃ u, value' = Bytes.ofChars u ∧ Text.trim u = Text.trim text)
    (hreads : Reads line.octets field) : Reads line'.octets field := by
  obtain ⟨hne, hnamed, text, htext, htrim⟩ := h.reads_iff.mp hreads
  obtain ⟨u, hu, hsame⟩ := hvalue text htext
  exact h'.reads_iff.mpr ⟨hne, hname _ hnamed, u, hu, hsame.trans htrim⟩

theorem Names.recased {m : List Char} (hcase : name.map lowerOctet = name'.map lowerOctet)
    (h : Names name m) : Names name' m := by
  obtain ⟨text, htext, rfl⟩ := h
  obtain ⟨text', htext', hlower⟩ := exists_of_recased hcase htext
  exact ⟨text', htext', by rw [lower_trim, lower_trim, hlower]⟩

theorem Names.padded {m : List Char} (h : Pads core name) (h' : Pads core name')
    (hname : Names name m) : Names name' m := by
  obtain ⟨text, htext, rfl⟩ := hname
  obtain ⟨u, hu, htrim⟩ := h.change h' htext
  exact ⟨u, hu, congrArg lower htrim⟩

/-! ## Reading lines -/

/-- The lines are read as fields. -/
def Present (later : List HeaderLine) (fields : List Field) : Prop :=
  List.Forall₂ (fun line => Reads line.octets) later fields

/-- If lines are read as fields, others are read as fields that are alike. -/
def Follows (later later' : List HeaderLine) : Prop :=
  ∀ fields, Present later fields → ∃ fields', Present later' fields' ∧ Alike fields fields'

/-- Lines are read as fields that are alike, or neither are read. -/
def Agrees (later later' : List HeaderLine) : Prop := Follows later later' ∧ Follows later' later

theorem Follows.trans {later'' : List HeaderLine} (h : Follows later later')
    (h' : Follows later' later'') : Follows later later'' := by
  intro fields hfields
  obtain ⟨fields', hfields', hlike⟩ := h fields hfields
  obtain ⟨fields'', hfields'', hlike'⟩ := h' fields' hfields'
  exact ⟨fields'', hfields'', hlike.trans hlike'⟩

theorem agrees_equivalence : Equivalence Agrees where
  refl _ := ⟨fun fields hfields => ⟨fields, hfields, .refl fields⟩,
    fun fields hfields => ⟨fields, hfields, .refl fields⟩⟩
  symm h := ⟨h.2, h.1⟩
  trans h h' := ⟨h.1.trans h'.1, h'.2.trans h.2⟩

theorem follows_of_perm (h : later.Perm later') : Follows later later' := by
  intro fields hfields
  obtain ⟨fields', hfields', hperm⟩ := List.perm_comp_forall₂ h.symm hfields
  exact ⟨fields', hfields', alike_of_perm hperm.symm⟩

theorem agrees_of_perm (h : later.Perm later') : Agrees later later' :=
  ⟨follows_of_perm h, follows_of_perm h.symm⟩

/-- Where lines stand among others does not matter. -/
theorem agrees_of_front (lines lines' : List HeaderLine)
    (h : ∀ others, Agrees (lines ++ others) (lines' ++ others)) :
    Agrees (before ++ lines ++ after) (before ++ lines' ++ after) := by
  have hfront (lines : List HeaderLine) :
      Agrees (before ++ lines ++ after) (lines ++ (before ++ after)) := by
    rw [← List.append_assoc]
    exact agrees_of_perm (List.perm_append_comm.append_right after)
  have hmiddle := agrees_equivalence.trans (hfront lines) (h (before ++ after))
  exact agrees_equivalence.trans hmiddle (agrees_equivalence.symm (hfront lines'))

theorem follows_of_reads (h : ∀ field, Reads line.octets field → Reads line'.octets field)
    (others : List HeaderLine) : Follows (line :: others) (line' :: others) := by
  intro fields hfields
  obtain ⟨field, more, hfield, hmore, rfl⟩ := List.forall₂_cons_left_iff.mp hfields
  exact ⟨field :: more, .cons (h field hfield) hmore, .refl _⟩

/-- Exchange a line for one that reads the same. -/
theorem agrees_of_reads (h : ∀ field, Reads line.octets field → Reads line'.octets field)
    (h' : ∀ field, Reads line'.octets field → Reads line.octets field) :
    Agrees (before ++ line :: after) (before ++ line' :: after) := by
  have hfront : Agrees (before ++ [line] ++ after) (before ++ [line'] ++ after) :=
    agrees_of_front _ _ fun others => ⟨follows_of_reads h others, follows_of_reads h' others⟩
  simpa only [List.append_assoc, List.singleton_append] using hfront

section Lists

variable {one two : HeaderLine} {name₁ name₂ a b c : Bytes} {listName : List Char}
  (hlist : IsList listName) (hname : Names name listName) (hname₁ : Names name₁ listName)
  (hname₂ : Names name₂ listName) (hline : line.Has name (a ++ 44 :: c))
  (hone : one.Has name₁ a) (htwo : two.Has name₂ b) (hpads : Pads b c)

include hlist hname hname₁ hname₂ hline hone htwo hpads

theorem follows_of_split (others : List HeaderLine) :
    Follows (line :: others) (one :: two :: others) := by
  intro fields hfields
  obtain ⟨⟨n, v⟩, more, hfield, hmore, rfl⟩ := List.forall₂_cons_left_iff.mp hfields
  obtain ⟨hne, hn, text, htext, rfl⟩ := hline.reads_iff.mp hfield
  obtain rfl := hn.unique hname
  obtain ⟨first, last, rfl, hlast, rfl⟩ :=
    (Bytes.ofChars_eq_append_octet (b := 44) (by decide)).mp htext.symm
  obtain ⟨second, hsecond, htrim⟩ := hpads.exists_core hlast
  refine ⟨(n, Text.trim first) :: (n, Text.trim second) :: more, .cons ?_ (.cons ?_ hmore), ?_⟩
  · exact hone.reads_iff.mpr ⟨hne, hname₁, first, rfl, rfl⟩
  · exact htwo.reads_iff.mpr ⟨hne, hname₂, second, hsecond, rfl⟩
  · refine alike_of_split hlist ?_ more
    rw [itemsOf_trim, itemsOf_trim, htrim, itemsOf_trim]
    exact itemsOf_append first last

theorem follows_of_merged (others : List HeaderLine) :
    Follows (one :: two :: others) (line :: others) := by
  intro fields hfields
  obtain ⟨⟨n, v⟩, _, hfield, hlater, rfl⟩ := List.forall₂_cons_left_iff.mp hfields
  obtain ⟨⟨m, w⟩, more, hfield', hmore, rfl⟩ := List.forall₂_cons_left_iff.mp hlater
  obtain ⟨hne, hn, first, rfl, rfl⟩ := hone.reads_iff.mp hfield
  obtain ⟨-, hm, second, hsecond, rfl⟩ := htwo.reads_iff.mp hfield'
  obtain rfl := hn.unique hname₁
  obtain rfl := hm.unique hname₂
  obtain ⟨last, rfl, htrim⟩ := hpads.exists_padded hsecond
  refine ⟨(m, Text.trim (first ++ ',' :: last)) :: more, .cons ?_ hmore, ?_⟩
  · refine hline.reads_iff.mpr ⟨hne, hname, first ++ ',' :: last, ?_, rfl⟩
    exact ((Bytes.ofChars_eq_append_octet (b := 44) (by decide)).mpr ⟨_, _, rfl, rfl, rfl⟩).symm
  · refine (alike_of_split hlist ?_ more).symm
    rw [itemsOf_trim, itemsOf_trim, ← htrim, itemsOf_trim, itemsOf_append]

/-- Exchange a list for two that it is made of. -/
theorem agrees_of_lists :
    Agrees (before ++ line :: after) (before ++ one :: two :: after) := by
  have hfront : Agrees (before ++ [line] ++ after) (before ++ [one, two] ++ after) :=
    agrees_of_front _ _ fun others =>
      ⟨follows_of_split hlist hname hname₁ hname₂ hline hone htwo hpads others,
        follows_of_merged hlist hname hname₁ hname₂ hline hone htwo hpads others⟩
  simpa only [List.append_assoc, List.cons_append, List.nil_append] using hfront

end Lists

theorem pads_self (octets : Bytes) : Pads octets octets :=
  ⟨[], [], by simp, by simp⟩

theorem agrees_of_regroups (h : Regroups later later') : Agrees later later' := by
  cases h with
  | permuted hperm => exact agrees_of_perm hperm
  | recased hline hline' hcase =>
    refine agrees_of_reads (fun field => ?_) (fun field => ?_)
    · exact hline.reads_of hline' (fun m => .recased hcase) (fun text htext => ⟨text, htext, rfl⟩)
    · exact hline'.reads_of hline (fun m => .recased hcase.symm)
        (fun text htext => ⟨text, htext, rfl⟩)
  | padded hline hline' hname hname' hvalue hvalue' =>
    refine agrees_of_reads (fun field => ?_) (fun field => ?_)
    · exact hline.reads_of hline' (fun m => .padded hname hname') (fun text => hvalue.change hvalue')
    · exact hline'.reads_of hline (fun m => .padded hname' hname) (fun text => hvalue'.change hvalue)
  | split hlist hname hname₁ hname₂ hline hone htwo =>
    exact agrees_of_lists hlist hname hname₁ hname₂ hline hone htwo (pads_self _)
  | merged hlist hname hname₁ hname₂ hone htwo hline =>
    refine agrees_equivalence.symm
      (agrees_of_lists hlist hname hname₁ hname₂ hline hone htwo ⟨[32], [], ?_, ?_⟩)
    · simp
    · simp

/-! ## Reading a request -/

theorem writtenOctets_ofChars (texts : List (List Char)) :
    writtenOctets (texts.map Bytes.ofChars) = Bytes.ofChars (written texts) := by
  induction texts with
  | nil => rfl
  | cons text texts ih =>
    rw [written_cons, Bytes.ofChars_append, Bytes.ofChars_append, ← ih]
    rfl

/-- A text in lines is cut at their ends. -/
theorem exists_of_writtenOctets {parts : List Bytes}
    (h : Bytes.ofChars text = writtenOctets parts ++ rest) :
    ∃ texts more, parts = texts.map Bytes.ofChars ∧ rest = Bytes.ofChars more ∧
      text = written texts ++ more := by
  induction parts generalizing text with
  | nil => exact ⟨[], text, rfl, h.symm, rfl⟩
  | cons part parts ih =>
    have hcut : Bytes.ofChars text = part ++ 13 :: 10 :: (writtenOctets parts ++ rest) := by
      rw [h]
      simp [writtenOctets]
    obtain ⟨first, later, rfl, hlater, rfl⟩ :=
      (Bytes.ofChars_eq_append_octet (b := 13) (by decide)).mp hcut
    have hnewline : Bytes.ofChars later = [] ++ 10 :: (writtenOctets parts ++ rest) := hlater.symm
    obtain ⟨none, more, hnone, hmore, rfl⟩ :=
      (Bytes.ofChars_eq_append_octet (by decide)).mp hnewline
    obtain rfl : none = [] := Bytes.ofChars_injective hnone.symm
    obtain ⟨texts, more, rfl, rfl, rfl⟩ := ih hmore.symm
    refine ⟨first :: texts, more, rfl, rfl, ?_⟩
    rw [written_cons, List.append_assoc, List.append_assoc]
    rfl

theorem free_of_octets (h : ¬ [13, 10] <:+: Bytes.ofChars text) : ¬ lineEnd <:+: text := by
  rintro ⟨earlier, later, rfl⟩
  refine h ⟨Bytes.ofChars earlier, Bytes.ofChars later, ?_⟩
  rw [Bytes.ofChars_append, Bytes.ofChars_append]
  rfl

theorem reads_ofChars_iff : Reads (Bytes.ofChars text) field ↔ IsField text field := by
  constructor
  · rintro ⟨line, hsame, hfield⟩
    rwa [Bytes.ofChars_injective hsame]
  · intro hfield
    exact ⟨text, rfl, hfield⟩

theorem present_texts_iff {texts : List (List Char)}
    (hlater : later.map (fun line => line.octets) = texts.map Bytes.ofChars) :
    Present later fields ↔ List.Forall₂ IsField texts fields := by
  have hmap : Present later fields ↔
      List.Forall₂ Reads (later.map fun line => line.octets) fields :=
    List.forall₂_map_left_iff.symm
  rw [hmap, hlater, List.forall₂_map_left_iff]
  simp only [reads_ofChars_iff]

theorem Present.exists_texts (h : Present later fields) :
    ∃ texts : List (List Char), later.map (fun line => line.octets) = texts.map Bytes.ofChars := by
  induction h with
  | nil => exact ⟨[], rfl⟩
  | cons hread _ ih =>
    obtain ⟨text, htext, -⟩ := hread
    obtain ⟨texts, htexts⟩ := ih
    exact ⟨text :: texts, by rw [List.map_cons, List.map_cons, htext, htexts]⟩

/-- What a request presents whose lines are texts. -/
theorem presents_texts {texts : List (List Char)} (hfirst : first.octets = Bytes.ofChars text)
    (hlater : later.map (fun line => line.octets) = texts.map Bytes.ofChars) :
    Presents (requestOf first later) fields ↔ IsRequestLine text ∧ Present later fields := by
  have hline : ∀ part ∈ texts, ∃ line ∈ later, line.octets = Bytes.ofChars part := by
    intro part hmem
    have hoctets := List.mem_map_of_mem (f := Bytes.ofChars) hmem
    rw [← hlater] at hoctets
    exact List.mem_map.mp hoctets
  have hfree : ∀ part ∈ text :: texts, ¬ lineEnd <:+: part := by
    intro part hmem
    rcases List.mem_cons.mp hmem with rfl | hmem
    · exact free_of_octets (hfirst ▸ first.free)
    · obtain ⟨line, -, hpart⟩ := hline part hmem
      exact free_of_octets (hpart ▸ line.free)
  have hne : ∀ part ∈ texts, part ≠ [] := by
    rintro _ hmem rfl
    obtain ⟨line, -, hpart⟩ := hline [] hmem
    exact line.ne_nil hpart
  have hrequest : requestOf first later =
      Bytes.ofString (String.ofList (written (text :: texts) ++ lineEnd)) := by
    rw [requestOf, hfirst, hlater, ← List.map_cons, writtenOctets_ofChars,
      Bytes.ofString_ofList_eq, Bytes.ofChars_append]
    rfl
  have hlines : lines (String.ofList (written (text :: texts) ++ lineEnd)).toList =
      text :: (texts ++ [] :: [[]]) := by
    rw [String.toList_ofList, lines_written_append hfree]
    rfl
  rw [hrequest, presents_iff hlines, takeWhile_append_blank hne, present_texts_iff hlater]

theorem presents_requestOf : Presents (requestOf first later) fields ↔
    (∃ text, first.octets = Bytes.ofChars text ∧ IsRequestLine text) ∧ Present later fields := by
  constructor
  · intro hpresents
    obtain ⟨text, _, _, hrequest, -⟩ := id hpresents
    rw [Bytes.ofString_eq, requestOf, eq_comm] at hrequest
    obtain ⟨texts, _, hparts, -, -⟩ := exists_of_writtenOctets hrequest
    obtain ⟨firstText, texts, rfl, hfirst, hlater⟩ := List.map_eq_cons_iff.mp hparts.symm
    obtain ⟨hline, hfields⟩ := (presents_texts hfirst.symm hlater.symm).mp hpresents
    exact ⟨⟨firstText, hfirst.symm, hline⟩, hfields⟩
  · rintro ⟨⟨text, hfirst, hline⟩, hfields⟩
    obtain ⟨texts, hlater⟩ := hfields.exists_texts
    exact (presents_texts hfirst hlater).mpr ⟨hline, hfields⟩

theorem Follows.transfers (h : Follows later later') (first : Line) :
    Transfers (requestOf first later) (requestOf first later') := by
  rintro key version ⟨fields, hpresents, hasks⟩
  obtain ⟨hfirst, hfields⟩ := presents_requestOf.mp hpresents
  obtain ⟨fields', hfields', hlike⟩ := h fields hfields
  exact hlike.transfers hpresents (presents_requestOf.mpr ⟨hfirst, hfields'⟩) key version
    ⟨fields, hpresents, hasks⟩

/-- Whatever is done to the header lines of a request that leaves their fields alike, the request
gets the same reply and is let in or not as before. -/
theorem negotiate_regrouped (first : Line) (later later' : List HeaderLine)
    (h : Relation.EqvGen Regroups later later') :
    (negotiate (requestOf first later)).reply = (negotiate (requestOf first later')).reply ∧
      (negotiate (requestOf first later)).isAccepted =
        (negotiate (requestOf first later')).isAccepted := by
  have hagrees : Agrees later later' :=
    agrees_equivalence.eqvGen_iff.mp (h.mono fun _ _ => agrees_of_regroups)
  exact negotiate_of_transfers (hagrees.1.transfers first) (hagrees.2.transfers first)

/-- Each of the changes once, to a request that is accepted. -/
theorem negotiate_regrouped_chat :
    let line (text : String) (hfree : ¬ [13, 10] <:+: Bytes.ofString text)
        (hne : Bytes.ofString text ≠ []) : HeaderLine := ⟨⟨Bytes.ofString text, hfree⟩, hne⟩
    let first : Line := ⟨Bytes.ofString "GET /chat HTTP/1.1", by decide +kernel⟩
    let key := line "Sec-WebSocket-Key: dGhlIHNhbXBsZSBub25jZQ==" (by decide +kernel)
      (by decide +kernel)
    let upgrade := line "Upgrade: h2c,websocket" (by decide +kernel) (by decide +kernel)
    let keep := line "Connection: keep-alive" (by decide +kernel) (by decide +kernel)
    let asks := line "connection:upgrade" (by decide +kernel) (by decide +kernel)
    let h2c := line "Upgrade: h2c" (by decide +kernel) (by decide +kernel)
    let webSocket := line "upgrade:websocket" (by decide +kernel) (by decide +kernel)
    let wide := line "CONNECTION\t: keep-alive, upgrade " (by decide +kernel) (by decide +kernel)
    let later := [key, upgrade, keep, asks]
    let later' := [wide, key, h2c, webSocket]
    Relation.EqvGen Regroups later later' ∧
      ((negotiate (requestOf first later)).reply = (negotiate (requestOf first later')).reply ∧
        (negotiate (requestOf first later)).isAccepted =
          (negotiate (requestOf first later')).isAccepted) ∧
      (negotiate (requestOf first later')).isAccepted = true := by
  intro line first key upgrade keep asks h2c webSocket wide later later'
  let both := line "Connection: keep-alive, upgrade" (by decide +kernel) (by decide +kernel)
  let loud := line "CONNECTION: keep-alive, upgrade" (by decide +kernel) (by decide +kernel)
  let upgradeList := Bytes.ofString " h2c" ++ 44 :: Bytes.ofString "websocket"
  let connectionList := Bytes.ofString " keep-alive" ++ 44 :: 32 :: Bytes.ofString "upgrade"
  have hnames (text : String) : Names (Bytes.ofString text) (lower (Text.trim text.toList)) :=
    ⟨text.toList, Bytes.ofString_eq text, rfl⟩
  have hupgrade : upgrade.Has (Bytes.ofString "Upgrade") upgradeList := by decide +kernel
  have hh2c : h2c.Has (Bytes.ofString "Upgrade") (Bytes.ofString " h2c") := by decide +kernel
  have hwebSocket : webSocket.Has (Bytes.ofString "upgrade") (Bytes.ofString "websocket") := by
    decide +kernel
  have hkeep : keep.Has (Bytes.ofString "Connection") (Bytes.ofString " keep-alive") := by
    decide +kernel
  have hasks : asks.Has (Bytes.ofString "connection") (Bytes.ofString "upgrade") := by
    decide +kernel
  have hboth : both.Has (Bytes.ofString "Connection") connectionList := by decide +kernel
  have hloud : loud.Has (Bytes.ofString "CONNECTION") connectionList := by decide +kernel
  have hwide : wide.Has (Bytes.ofString "CONNECTION" ++ [9]) (connectionList ++ [32]) := by
    decide +kernel
  have hsplit : Regroups ([key] ++ upgrade :: [keep, asks])
      ([key] ++ h2c :: webSocket :: [keep, asks]) :=
    .split (.inl rfl) (hnames "Upgrade") (hnames "Upgrade") (hnames "upgrade") hupgrade hh2c
      hwebSocket
  have hmerged : Regroups ([key, h2c, webSocket] ++ keep :: asks :: [])
      ([key, h2c, webSocket] ++ both :: []) :=
    .merged (.inr rfl) (hnames "Connection") (hnames "Connection") (hnames "connection") hkeep
      hasks hboth
  have hrecased : Regroups ([key, h2c, webSocket] ++ both :: [])
      ([key, h2c, webSocket] ++ loud :: []) := .recased hboth hloud (by decide +kernel)
  have hpadded : Regroups ([key, h2c, webSocket] ++ loud :: [])
      ([key, h2c, webSocket] ++ wide :: []) :=
    .padded hloud hwide (pads_self _) ⟨[], [9], by simp, rfl⟩ (pads_self _)
      ⟨[], [32], by simp, rfl⟩
  have hpermuted : Regroups ([key, h2c, webSocket] ++ [wide]) ([wide] ++ [key, h2c, webSocket]) :=
    .permuted List.perm_append_comm
  have hregroups : Relation.EqvGen Regroups later later' :=
    .trans _ _ _ (.rel _ _ hsplit) (.trans _ _ _ (.rel _ _ hmerged) (.trans _ _ _
      (.rel _ _ hrecased) (.trans _ _ _ (.rel _ _ hpadded) (.rel _ _ hpermuted))))
  exact ⟨hregroups, negotiate_regrouped first later later' hregroups, by decide +kernel⟩

end WebSocket.Opening
