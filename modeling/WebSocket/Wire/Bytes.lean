/-!
# Octets and network byte order

Everything that travels on a stream is a list of octets.  `BigEndian.encode width n` writes the
low `width` octets of `n`, the most significant first, and `BigEndian.decode` reads octets back.
`BigEndian.span width` is how many numbers so many octets can write:

    (encode width n).length = width                 (length_encode)
    decode (encode width n) = n % span width        (decode_encode)
-/

namespace WebSocket

abbrev Bytes := List UInt8

def Bytes.ofString (s : String) : Bytes := s.toByteArray.data.toList

/-- The string whose UTF-8 octets are given, if they are well formed. -/
def Bytes.toString? (octets : Bytes) : Option String := String.fromUTF8? ⟨octets.toArray⟩

namespace BigEndian

/-- How many numbers `width` octets can write. -/
def span : Nat → Nat
  | 0 => 1
  | width + 1 => 256 * span width

/-- The low `width` octets of `n`, the most significant first. -/
def encode : Nat → Nat → Bytes
  | 0, _ => []
  | width + 1, n => UInt8.ofNat (n / span width) :: encode width n

/-- The number that the octets write in base 256. -/
def decode (octets : Bytes) : Nat :=
  octets.foldl (fun n octet => n * 256 + octet.toNat) 0

/-! ## Lemmas -/

@[simp] theorem length_encode (width n : Nat) : (encode width n).length = width := by
  induction width with
  | zero => rfl
  | succ width ih => simp [encode, ih]

theorem foldl_encode (width n start : Nat) :
    (encode width n).foldl (fun m octet => m * 256 + octet.toNat) start
      = start * span width + n % span width := by
  induction width generalizing start with
  | zero => simp [encode, span, Nat.mod_one]
  | succ width ih =>
    have octet : (UInt8.ofNat (n / span width)).toNat = n / span width % 256 := by simp
    rw [encode, List.foldl_cons, ih, octet, span, Nat.mul_comm 256 (span width), Nat.mod_mul,
      Nat.add_mul, Nat.mul_assoc, Nat.mul_comm 256 (span width),
      Nat.mul_comm (n / span width % 256)]
    omega

theorem decode_encode (width n : Nat) : decode (encode width n) = n % span width := by
  unfold decode
  rw [foldl_encode]
  omega

end BigEndian

/-! ## Strings -/

theorem Bytes.ofString_of_toString? {octets : Bytes} {s : String}
    (h : octets.toString? = some s) : Bytes.ofString s = octets := by
  unfold Bytes.toString? String.fromUTF8? at h
  split at h
  · injection h with h
    subst h
    rfl
  · simp at h

theorem Bytes.toString?_ofString (s : String) : (Bytes.ofString s).toString? = some s := by
  unfold Bytes.toString? String.fromUTF8? Bytes.ofString
  have hsame : (⟨s.toByteArray.data.toList.toArray⟩ : ByteArray) = s.toByteArray := by simp
  rw [hsame]
  split
  · rfl
  · rename_i hinvalid
    exact absurd s.isValidUTF8 hinvalid

/-- Octets are UTF-8 if they are the octets of a string. -/
theorem Bytes.toString?_eq_some_iff {octets : Bytes} {s : String} :
    octets.toString? = some s ↔ octets = Bytes.ofString s := by
  constructor
  · intro h
    exact (Bytes.ofString_of_toString? h).symm
  · rintro rfl
    exact Bytes.toString?_ofString s

theorem Bytes.ofString_append (s t : String) :
    Bytes.ofString (s ++ t) = Bytes.ofString s ++ Bytes.ofString t := by
  simp [Bytes.ofString]

theorem Bytes.ofString_ofList (text : List Char) :
    Bytes.ofString (String.ofList text) = text.flatMap String.utf8EncodeChar := by
  simp [Bytes.ofString, String.toByteArray_ofList, List.utf8Encode]

end WebSocket
