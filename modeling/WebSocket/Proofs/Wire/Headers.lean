import Mathlib.Tactic.Ring
import WebSocket.Wire.ClientFrame
import WebSocket.Wire.Decoder

/-!
# What a header writes

The first octet of a header that breaks no rule is a supported opcode under the top bit, the second
a marker under the top bit, and the marker with the octets after it writes the length of the
payload in one of three forms:

    encode octets.length (decode octets) = octets                                (encode_decode)
    fixedViolation? first second = none ↔
      (ofBits first ∈ supported ∧ first = 0x80 ||| (ofBits first).bits) ∧
        second &&& 0x80 ≠ 0                                       (fixedViolation?_eq_none_iff)
    declaredLength? second octets = some (length, rest) ↔
      ∃ form, form.Holds length ∧ second &&& 0x7F = form.marker length ∧
        octets = form.extension length ++ rest                     (declaredLength?_eq_some_iff)
-/

namespace WebSocket

/-! ## Numbers -/

namespace BigEndian

theorem foldl_octets (octets : Bytes) (start : Nat) :
    octets.foldl (fun n octet => n * 256 + octet.toNat) start =
      start * span octets.length + decode octets := by
  unfold decode
  induction octets generalizing start with
  | nil => simp [span]
  | cons octet octets ih =>
    rw [List.foldl_cons, List.foldl_cons, ih, ih (0 * 256 + octet.toNat), List.length_cons, span]
    ring

theorem decode_cons (octet : UInt8) (octets : Bytes) :
    decode (octet :: octets) = octet.toNat * span octets.length + decode octets := by
  show List.foldl _ (0 * 256 + octet.toNat) octets = _
  rw [foldl_octets, Nat.zero_mul, Nat.zero_add]

theorem decode_lt_span (octets : Bytes) : decode octets < span octets.length := by
  induction octets with
  | nil => decide
  | cons octet octets ih =>
    have hoctet : octet.toNat ≤ 255 := Nat.le_of_lt_succ octet.toNat_lt
    calc decode (octet :: octets)
        = octet.toNat * span octets.length + decode octets := decode_cons octet octets
      _ < octet.toNat * span octets.length + span octets.length := by omega
      _ ≤ 255 * span octets.length + span octets.length :=
          Nat.add_le_add_right (Nat.mul_le_mul_right _ hoctet) _
      _ = span (octet :: octets).length := by rw [List.length_cons, span]; ring

/-- Only the low octets of a number are written. -/
theorem encode_mul_add (width m n : Nat) : encode width (m * span width + n) = encode width n := by
  induction width generalizing m with
  | zero => rfl
  | succ width ih =>
    have hpos : 0 < span width := by
      clear ih
      induction width with
      | zero => decide
      | succ width ih => rw [span]; omega
    have hnumber : m * span (width + 1) + n = (m * 256) * span width + n := by
      rw [span]
      ring
    have hdigit : UInt8.ofNat (((m * 256) * span width + n) / span width) =
        UInt8.ofNat (n / span width) := by
      rw [Nat.add_comm, Nat.add_mul_div_right _ _ hpos]
      apply UInt8.toNat_inj.mp
      simp
    rw [encode, encode, hnumber, ih, hdigit]

theorem encode_decode (octets : Bytes) : encode octets.length (decode octets) = octets := by
  induction octets with
  | nil => rfl
  | cons octet octets ih =>
    have hlow := decode_lt_span octets
    have hdigit : (octet.toNat * span octets.length + decode octets) / span octets.length =
        octet.toNat := by
      rw [Nat.add_comm, Nat.add_mul_div_right _ _ (by omega), Nat.div_eq_of_lt hlow,
        Nat.zero_add]
    rw [decode_cons, List.length_cons, encode, encode_mul_add, ih, hdigit, UInt8.ofNat_toNat]

end BigEndian

/-! ## Bits of an octet -/

theorem octet_all (P : UInt8 → Prop) (h : ∀ n, n < 256 → P (UInt8.ofNat n)) (octet : UInt8) :
    P octet := by
  have := h octet.toNat octet.toNat_lt
  rwa [UInt8.ofNat_toNat] at this

/-- An octet with its top bit set is that bit and the seven others. -/
theorem eq_top_or_low {octet : UInt8} (h : octet &&& 0x80 ≠ 0) :
    octet = 0x80 ||| (octet &&& 0x7F) := by
  revert h
  exact octet_all (fun octet => octet &&& 0x80 ≠ 0 → octet = 0x80 ||| (octet &&& 0x7F))
    (by decide +kernel) octet

theorem top_or_ne_zero (octet : UInt8) : (0x80 ||| octet) &&& 0x80 ≠ 0 :=
  octet_all (fun octet => (0x80 ||| octet) &&& 0x80 ≠ 0) (by decide +kernel) octet

def Opcode.supported : List Opcode := [.text, .binary, .close, .ping, .pong]

theorem Opcode.isSupported_iff_mem (opcode : Opcode) :
    opcode.isSupported ↔ opcode ∈ Opcode.supported := by
  cases opcode <;> simp [isSupported, supported]

theorem Opcode.ofBits_top {opcode : Opcode} (h : opcode ∈ supported) :
    ofBits (0x80 ||| opcode.bits) = opcode := by
  revert opcode
  decide

/-- The first octets that break no rule are those of the supported opcodes. -/
theorem eq_top_or_bits {first : UInt8} (hreserved : first &&& 0x70 = 0)
    (hopcode : (Opcode.ofBits first).isSupported) (hfin : first &&& 0x80 ≠ 0) :
    first = 0x80 ||| (Opcode.ofBits first).bits := by
  revert hreserved hopcode hfin
  exact octet_all (fun first => first &&& 0x70 = 0 → (Opcode.ofBits first).isSupported →
    first &&& 0x80 ≠ 0 → first = 0x80 ||| (Opcode.ofBits first).bits) (by decide +kernel) first

theorem fixedViolation?_eq_none_iff {first second : UInt8} :
    fixedViolation? first second = none ↔
      (Opcode.ofBits first ∈ Opcode.supported ∧ first = 0x80 ||| (Opcode.ofBits first).bits) ∧
        second &&& 0x80 ≠ 0 := by
  rw [← Opcode.isSupported_iff_mem]
  constructor
  · intro h
    simp only [fixedViolation?] at h
    split at h
    · cases h
    · rename_i hreserved
      split at h
      · cases h
      · rename_i hopcode
        split at h
        · cases h
        · rename_i hfin
          split at h
          · cases h
          · rename_i hmask
            have hopcode : (Opcode.ofBits first).isSupported := by simpa using hopcode
            exact ⟨⟨hopcode, eq_top_or_bits (by simpa using hreserved) hopcode hfin⟩, hmask⟩
  · rintro ⟨⟨hopcode, hfirst⟩, hmask⟩
    have hall : ∀ opcode : Opcode, opcode.isSupported →
        (0x80 ||| opcode.bits) &&& 0x70 = 0 ∧ (0x80 ||| opcode.bits) &&& 0x80 ≠ 0 := by
      intro opcode
      cases opcode <;> simp [Opcode.isSupported] <;> decide
    have hbits := hall _ hopcode
    rw [← hfirst] at hbits
    simp [fixedViolation?, hbits, hopcode, hmask]

/-! ## Lengths -/

/-- A form can write a length. -/
def LengthForm.Holds (length : Nat) : LengthForm → Prop
  | inline => length ≤ 125
  | medium => length < 2 ^ 16
  | long => length < 2 ^ 64

/-- The number that so many octets write is read off just where they stand. -/
theorem number_eq_some_iff {width length : Nat} {octets rest : Bytes} :
    (takeExactly width octets).map (fun (digits, rest) => (BigEndian.decode digits, rest)) =
        some (length, rest) ↔
      length < BigEndian.span width ∧ octets = BigEndian.encode width length ++ rest := by
  constructor
  · intro h
    obtain ⟨⟨digits, rest'⟩, htaken, hsame⟩ := Option.map_eq_some_iff.mp h
    cases hsame
    obtain ⟨rfl, rfl⟩ := takeExactly_eq_some_iff.mp htaken
    exact ⟨BigEndian.decode_lt_span digits, by rw [BigEndian.encode_decode]⟩
  · rintro ⟨hlength, rfl⟩
    have htaken : takeExactly width (BigEndian.encode width length ++ rest) =
        some (BigEndian.encode width length, rest) :=
      takeExactly_eq_some_iff.mpr ⟨rfl, BigEndian.length_encode width length⟩
    simp only [htaken, Option.map_some, BigEndian.decode_encode, Nat.mod_eq_of_lt hlength]

/-- A length is declared in one of the three forms, and every form that holds it will do. -/
theorem declaredLength?_eq_some_iff {second : UInt8} {octets rest : Bytes} {length : Nat} :
    declaredLength? second octets = some (length, rest) ↔
      ∃ form : LengthForm, form.Holds length ∧ second &&& 0x7F = form.marker length ∧
        octets = form.extension length ++ rest := by
  constructor
  · intro h
    simp only [declaredLength?] at h
    split at h
    · rename_i hmedium
      obtain ⟨hlength, hoctets⟩ := number_eq_some_iff.mp h
      exact ⟨.medium, hlength, hmedium, hoctets⟩
    · rename_i hmedium
      split at h
      · rename_i hlong
        obtain ⟨hlength, hoctets⟩ := number_eq_some_iff.mp h
        exact ⟨.long, hlength, hlong, hoctets⟩
      · rename_i hlong
        cases h
        have hseven : (second &&& 0x7F).toNat ≤ 127 := by
          rw [UInt8.toNat_and]
          exact Nat.and_le_right
        have hmedium : (second &&& 0x7F).toNat ≠ 126 := fun h => hmedium (UInt8.toNat_inj.mp h)
        have hlong : (second &&& 0x7F).toNat ≠ 127 := fun h => hlong (UInt8.toNat_inj.mp h)
        refine ⟨.inline, ?_, UInt8.ofNat_toNat.symm, rfl⟩
        show (second &&& 0x7F).toNat ≤ 125
        omega
  · rintro ⟨form, hholds, hmarker, rfl⟩
    cases form with
    | inline =>
      have hnumber : (UInt8.ofNat length).toNat = length :=
        UInt8.toNat_ofNat_of_lt' (Nat.lt_of_le_of_lt hholds (by decide))
      have hshort : length ≤ 125 := hholds
      have hmedium : UInt8.ofNat length ≠ 126 := by
        intro h
        rw [h, show (126 : UInt8).toNat = 126 from rfl] at hnumber
        omega
      have hlong : UInt8.ofNat length ≠ 127 := by
        intro h
        rw [h, show (127 : UInt8).toNat = 127 from rfl] at hnumber
        omega
      simp only [declaredLength?, hmarker, LengthForm.marker, if_neg hmedium, if_neg hlong,
        hnumber, LengthForm.extension, List.nil_append]
    | medium =>
      simp only [declaredLength?, hmarker, LengthForm.marker, if_pos]
      exact number_eq_some_iff.mpr ⟨hholds, rfl⟩
    | long =>
      have hother : ¬ (127 : UInt8) = 126 := by decide
      simp only [declaredLength?, hmarker, LengthForm.marker, if_neg hother, if_pos]
      exact number_eq_some_iff.mpr ⟨hholds, rfl⟩

theorem LengthForm.low_marker {form : LengthForm} {length : Nat} (h : form.Holds length) :
    (0x80 ||| form.marker length) &&& 0x7F = form.marker length := by
  cases form with
  | inline =>
    have hall : ∀ n, n ≤ 125 → (0x80 ||| UInt8.ofNat n) &&& 0x7F = UInt8.ofNat n := by
      decide +kernel
    exact hall length h
  | medium => show (0x80 ||| 126 : UInt8) &&& 0x7F = 126; decide
  | long => show (0x80 ||| 127 : UInt8) &&& 0x7F = 127; decide

theorem lengthViolation?_eq_none_iff {limit length : Nat} {opcode : Opcode} :
    lengthViolation? limit opcode length = none ↔
      length < 2 ^ 63 ∧ (opcode.isControl → length ≤ maxControlPayload) ∧ length ≤ limit := by
  simp only [lengthViolation?]
  split
  · rename_i htop
    simp only [reduceCtorEq, false_iff, not_and]
    omega
  · rename_i htop
    split
    · rename_i hcontrol
      simp only [Bool.and_eq_true, decide_eq_true_eq] at hcontrol
      simp only [reduceCtorEq, false_iff, not_and]
      intro _ hall
      have := hall hcontrol.1
      omega
    · rename_i hcontrol
      simp only [Bool.and_eq_true, decide_eq_true_eq, not_and, Nat.not_lt] at hcontrol
      split
      · simp only [reduceCtorEq, false_iff, not_and]
        omega
      · simp only [true_iff]
        exact ⟨by omega, hcontrol, by omega⟩

end WebSocket
