import Mathlib.Data.List.Basic
import WebSocket.Wire.Bytes

/-!
# Characters in octets

The octets of a text are those of its characters, one after another.  Whether an octet is the first
one of a character can be seen from it alone.  So a cut through octets in front of such an octet is
a cut through the text (`ofChars_eq_append`), and an ASCII octet always stands for its own character
(`ofChars_eq_append_cons`):

    ofChars text = octets ++ ofChars more ↔ ∃ earlier, octets = ofChars earlier ∧ text = earlier ++ more
-/

namespace WebSocket

namespace Bytes

def ofChars (text : List Char) : Bytes := text.flatMap String.utf8EncodeChar

variable {text more : List Char} {c : Char} {b : UInt8} {octets rest : Bytes}

@[simp] theorem ofChars_nil : ofChars [] = [] := rfl

@[simp] theorem ofChars_cons (c : Char) (text : List Char) :
    ofChars (c :: text) = String.utf8EncodeChar c ++ ofChars text := rfl

@[simp] theorem ofChars_append (text more : List Char) :
    ofChars (text ++ more) = ofChars text ++ ofChars more :=
  List.flatMap_append ..

theorem ofString_ofList_eq (text : List Char) : ofString (String.ofList text) = ofChars text :=
  ofString_ofList text

theorem ofString_eq (s : String) : ofString s = ofChars s.toList := by
  rw [← ofString_ofList_eq, String.ofList_toList]

theorem ofChars_injective : Function.Injective ofChars := by
  intro text more h
  rw [← ofString_ofList_eq, ← ofString_ofList_eq] at h
  have hread := toString?_ofString (String.ofList text)
  rw [h, toString?_ofString] at hread
  exact String.ofList_injective (Option.some.inj hread).symm

/-- The octets of a character, with the first of them set apart. -/
theorem exists_utf8EncodeChar (c : Char) :
    ∃ first later, String.utf8EncodeChar c = first :: later ∧ first.IsUTF8FirstByte := by
  obtain ⟨first, later, hc⟩ := List.exists_cons_of_ne_nil (String.utf8EncodeChar_ne_nil (c := c))
  have hfirst := UInt8.isUTF8FirstByte_getElem_zero_utf8EncodeChar (c := c)
  simp only [hc, List.getElem_cons_zero] at hfirst
  exact ⟨first, later, hc, hfirst⟩

/-- Octets begin with one character at most. -/
theorem eq_of_utf8EncodeChar_append {d : Char} {more : Bytes}
    (h : String.utf8EncodeChar c ++ rest = String.utf8EncodeChar d ++ more) : c = d := by
  have harrays := congrArg List.toByteArray h
  rw [List.toByteArray_append, List.toByteArray_append] at harrays
  have hdecoded := congrArg (ByteArray.utf8DecodeChar? · 0) harrays
  simpa only [ByteArray.utf8DecodeChar?_utf8EncodeChar_append, Option.some.injEq] using hdecoded

/-- A text can be cut wherever a character begins. -/
theorem exists_of_begins (h : ofChars text = octets ++ b :: rest) (hb : b.IsUTF8FirstByte) :
    ∃ earlier later, text = earlier ++ later ∧ octets = ofChars earlier ∧
      b :: rest = ofChars later := by
  induction text generalizing octets with
  | nil => simp at h
  | cons c text ih =>
    cases octets with
    | nil => exact ⟨[], c :: text, rfl, rfl, h.symm⟩
    | cons a octets =>
      rw [ofChars_cons] at h
      rcases Nat.lt_or_ge (octets.length + 1) (String.utf8EncodeChar c).length with hlt | hle
      · -- The octet would stand within the first character, after its first octet.
        have hwithin : (String.utf8EncodeChar c)[octets.length + 1] = b := by
          have hget := congrArg (fun l => l[octets.length + 1]?) h
          simpa [List.getElem?_append_left hlt, List.getElem?_eq_getElem hlt] using hget
        rw [← hwithin, UInt8.isUTF8FirstByte_getElem_utf8EncodeChar] at hb
        cases hb
      · have hwhole : a :: octets <+: String.utf8EncodeChar c ++ ofChars text :=
          h ▸ List.prefix_append ..
        obtain ⟨between, hbetween⟩ : String.utf8EncodeChar c <+: a :: octets :=
          List.prefix_of_prefix_length_le (List.prefix_append ..) hwhole (by simpa using hle)
        rw [← hbetween, List.append_assoc] at h
        obtain ⟨earlier, later, rfl, rfl, hlater⟩ := ih (List.append_cancel_left h)
        exact ⟨c :: earlier, later, rfl, by rw [ofChars_cons, hbetween], hlater⟩

/-- What comes before a text is text if the whole is. -/
theorem ofChars_eq_append :
    ofChars text = octets ++ ofChars more ↔
      ∃ earlier, octets = ofChars earlier ∧ text = earlier ++ more := by
  constructor
  · intro h
    cases more with
    | nil => exact ⟨text, by rw [h, ofChars_nil, List.append_nil], (List.append_nil text).symm⟩
    | cons c more =>
      obtain ⟨first, later, hc, hfirst⟩ := exists_utf8EncodeChar c
      have hsplit := h
      rw [ofChars_cons, hc, List.cons_append] at hsplit
      obtain ⟨earlier, _, rfl, rfl, hlater⟩ := exists_of_begins hsplit hfirst
      rw [ofChars_append, List.append_cancel_left_eq] at h
      exact ⟨earlier, rfl, congrArg _ (ofChars_injective h)⟩
  · rintro ⟨earlier, rfl, rfl⟩
    exact ofChars_append ..

/-- What comes after a text is text if the whole is. -/
theorem ofChars_eq_ofChars_append {earlier : List Char} :
    ofChars text = ofChars earlier ++ rest ↔
      ∃ later, rest = ofChars later ∧ text = earlier ++ later := by
  constructor
  · intro h
    induction earlier generalizing text with
    | nil => exact ⟨text, h.symm, rfl⟩
    | cons c earlier ih =>
      rw [ofChars_cons, List.append_assoc] at h
      cases text with
      | nil => exact absurd (List.append_eq_nil_iff.mp h.symm).1 String.utf8EncodeChar_ne_nil
      | cons d text =>
        obtain rfl := eq_of_utf8EncodeChar_append h
        obtain ⟨later, hrest, rfl⟩ := ih (List.append_cancel_left h)
        exact ⟨later, hrest, rfl⟩
  · rintro ⟨later, rfl, rfl⟩
    exact ofChars_append ..

/-! ## ASCII -/

theorem utf8EncodeChar_of_ascii (h : c.toNat < 128) :
    String.utf8EncodeChar c = [c.toUInt8] := by
  refine String.utf8EncodeChar_eq_singleton ?_
  rw [Char.utf8Size_eq_one_iff, UInt32.le_iff_toNat_le]
  show c.toNat ≤ 127
  omega

theorem toUInt8_mem_ofChars (h : c.toNat < 128) (hmem : c ∈ text) : c.toUInt8 ∈ ofChars text := by
  refine List.mem_flatMap.mpr ⟨c, hmem, ?_⟩
  rw [utf8EncodeChar_of_ascii h]
  exact List.mem_singleton_self _

theorem toUInt8_ofUInt8 (b : UInt8) : (Char.ofUInt8 b).toUInt8 = b := UInt8.toUInt8_toUInt32 b

/-- ASCII octets are the octets of a text. -/
theorem ofChars_ofUInt8 (h : ∀ b ∈ octets, b.toNat < 128) :
    ofChars (octets.map Char.ofUInt8) = octets := by
  induction octets with
  | nil => rfl
  | cons b octets ih =>
    obtain ⟨hb, hoctets⟩ := List.forall_mem_cons.mp h
    have hc : (Char.ofUInt8 b).toNat < 128 := hb
    rw [List.map_cons, ofChars_cons, utf8EncodeChar_of_ascii hc, ih hoctets]
    exact congrArg (· :: octets) (toUInt8_ofUInt8 b)

/-- The octet of an ASCII character stands for nothing else. -/
theorem ofChars_eq_append_cons (h : c.toNat < 128) :
    ofChars text = octets ++ c.toUInt8 :: rest ↔ ∃ earlier later, octets = ofChars earlier ∧
      rest = ofChars later ∧ text = earlier ++ c :: later := by
  have hc := utf8EncodeChar_of_ascii h
  constructor
  · intro hsplit
    have hbegins : c.toUInt8.IsUTF8FirstByte := by
      obtain ⟨first, later, hfirst, hbegins⟩ := exists_utf8EncodeChar c
      rw [hc] at hfirst
      exact (List.cons.inj hfirst).1 ▸ hbegins
    obtain ⟨earlier, later, rfl, rfl, hlater⟩ := exists_of_begins hsplit hbegins
    cases later with
    | nil => cases hlater
    | cons d later =>
      have hsame : String.utf8EncodeChar c ++ rest = String.utf8EncodeChar d ++ ofChars later := by
        rw [hc]
        exact hlater
      obtain rfl := eq_of_utf8EncodeChar_append hsame
      exact ⟨earlier, later, rfl, List.append_cancel_left hsame, rfl⟩
  · rintro ⟨earlier, later, rfl, rfl, rfl⟩
    rw [ofChars_append, ofChars_cons, hc]
    rfl

theorem ofChars_eq_append_octet (h : b.toNat < 128) :
    ofChars text = octets ++ b :: rest ↔ ∃ earlier later, octets = ofChars earlier ∧
      rest = ofChars later ∧ text = earlier ++ Char.ofUInt8 b :: later := by
  have hc : (Char.ofUInt8 b).toNat < 128 := h
  rw [← ofChars_eq_append_cons hc, toUInt8_ofUInt8]

end Bytes

end WebSocket
